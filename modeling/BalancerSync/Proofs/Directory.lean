import BalancerSync.Proofs.OrderedMap
import BalancerSync.Proofs.StateFile
import BalancerSync.Scenario.Directory

namespace BalancerSync.Scenario.Directory

open CommandLine

variable {d d' : Directory} {limit limit' : Nat} {path path' text name : String} {o : Options}
  {e : Execution} {fresh : Nat → Identifier} {args : List String} {order : Campaign.Order Memory}
  {inventory : Inventory}

theorem size_le_of_place (h : place limit path = .file name) : path.utf8ByteSize ≤ limit := by
  rw [place] at h
  split at h
  · cases h
  next hnot => exact Nat.le_of_not_lt fun hlong => hnot (.inr hlong)

/-- What a path leads to depends on the limit only as far as the path may be too long. -/
theorem place_of_size_le (hshort : path.utf8ByteSize ≤ limit)
    (h : place limit' path = .file name) : place limit path = .file name := by
  rw [place] at h ⊢
  split at h
  · cases h
  next hnot =>
    rw [if_neg (not_or.2 ⟨fun hempty => hnot (.inl hempty), Nat.not_lt.2 hshort⟩)]
    exact h

theorem place_of_le (hle : limit ≤ limit') (h : place limit path = .file name) :
    place limit' path = .file name := place_of_size_le ((size_le_of_place h).trans hle) h

theorem writeWithin?_eq_some_iff : d.writeWithin? limit path text = some d' ↔
    ∃ name, place limit path = .file name ∧ d' = d.insert name text := by
  rw [writeWithin?]
  cases place limit path <;> simp [eq_comm]

theorem readWithin_of_place (h : place limit path = .file name) (hget : d.get? name = some text) :
    d.readWithin limit path = .text text := by
  rw [readWithin, h]
  simp only [hget]

/-- Of several files that are put at one place the last one stays. -/
theorem get?_put (d : Directory) (files : List (String × String)) (name : String) :
    (files.foldl (fun d e => (d.writeWithin? limit e.1 e.2).getD d) d).get? name =
      ((files.reverse.find? fun e => place limit e.1 = .file name).map (·.2)).or (d.get? name) := by
  induction files generalizing d with
  | nil => rfl
  | cons e files ih =>
    have hstep : ((d.writeWithin? limit e.1 e.2).getD d).get? name =
        if place limit e.1 = .file name then some e.2 else d.get? name := by
      rw [writeWithin?]
      cases hplace : place limit e.1 with
      | file name' => simp [OrderedMap.get?_insert]
      | directory | nowhere => simp
    rw [List.foldl_cons, ih, hstep, List.reverse_cons, List.find?_append]
    cases files.reverse.find? fun e => place limit e.1 = .file name with
    | some e' => rfl
    | none => by_cases hplace : place limit e.1 = .file name <;> simp [hplace]

/-- Of a file that is put into the directory a run reads the text, unless another one is put there. -/
theorem read_put {files : OrderedMap String String} (hmem : (path, text) ∈ files.entries)
    (hname : place (pathLimit - rootLength) path = .file name)
    (honly : ∀ e ∈ files.entries, place (pathLimit - rootLength) e.1 = .file name →
      e = (path, text)) : (d.put files).read path = .text text := by
  have hfind : (files.entries.reverse.find? fun e =>
      place (pathLimit - rootLength) e.1 = .file name) = some (path, text) := by
    cases h : files.entries.reverse.find? fun e => place (pathLimit - rootLength) e.1 = .file name with
    | none =>
      have hno := List.find?_eq_none.1 h (path, text) (List.mem_reverse.2 hmem)
      exact absurd (decide_eq_true hname) hno
    | some e =>
      have hplace : place (pathLimit - rootLength) e.1 = .file name := by
        simpa using List.find?_some h
      rw [honly e (List.mem_reverse.1 (List.mem_of_find?_eq_some h)) hplace]
  refine readWithin_of_place (place_of_le (Nat.sub_le ..) hname) ?_
  rw [put, get?_put, hfind]
  rfl

/-- A run of the command line, with what its surroundings decide. -/
structure Launch where
  args : List String
  fresh : Nat → Identifier
  order : Campaign.Order Memory

def launch (d : Directory) (l : Launch) : Outcome × Directory := d.run l.fresh l.args l.order

/-- What several runs leave behind, one after the other. -/
def after (d : Directory) (launches : List Launch) : Directory :=
  launches.foldl (fun d l => (d.launch l).2) d

def Launch.SavesAt (l : Launch) (name : String) : Prop :=
  ∃ o, Invocation.ofArguments l.args = .execute o ∧ place pathLimit o.state = .file name

variable {l : Launch} {before later launches : List Launch}

theorem launch_eq (h : Invocation.ofArguments l.args = .execute o) :
    d.launch l = d.save o (execute l.fresh o (d.filesOf o) l.order) := by
  rw [launch, run, h]

theorem save_of_nowhere (hsaved : e.inventory = some inventory)
    (hplace : ∀ name, place pathLimit o.state ≠ .file name) :
    d.save o e = (⟨1, outputLines e.lines, some (.unwritableState o.state)⟩, d) := by
  have hwrite : d.write? o.state (writeState inventory) = none := by
    rw [Option.eq_none_iff_forall_ne_some]
    intro d' h
    obtain ⟨name, hname, -⟩ := writeWithin?_eq_some_iff.1 h
    exact hplace name hname
  rw [save, hsaved]
  simp only [hwrite]
  rfl

theorem save_of_place (hsaved : e.inventory = some inventory)
    (hplace : place pathLimit o.state = .file name) : d.save o e =
      (⟨if e.mishap.isSome then 1 else 0, outputLines e.lines, e.mishap⟩,
        d.insert name (writeState inventory)) := by
  have hwrite : d.write? o.state (writeState inventory) =
      some (d.insert name (writeState inventory)) := writeWithin?_eq_some_iff.2 ⟨name, hplace, rfl⟩
  rw [save, hsaved]
  simp only [hwrite]

theorem get?_save (hname : place pathLimit o.state ≠ .file name) :
    (d.save o e).2.get? name = d.get? name := by
  cases hsaved : e.inventory with
  | none =>
    rw [save, hsaved]
  | some inventory =>
    cases hplace : place pathLimit o.state with
    | file name' =>
      rw [save_of_place hsaved hplace]
      exact OrderedMap.get?_insert_of_ne _ _ fun heq => hname (by rw [hplace, heq])
    | directory | nowhere =>
      rw [save_of_nowhere hsaved (by rw [hplace]; nofun)]

theorem get?_launch (h : ¬ l.SavesAt name) : (d.launch l).2.get? name = d.get? name := by
  rw [launch, run]
  cases hargs : Invocation.ofArguments l.args with
  | execute o => exact get?_save fun hplace => h ⟨o, hargs, hplace⟩
  | _ => rfl

theorem get?_after (h : ∀ l ∈ launches, ¬ l.SavesAt name) :
    (d.after launches).get? name = d.get? name := by
  induction launches generalizing d with
  | nil => rfl
  | cons l launches ih =>
    rw [after, List.foldl_cons]
    exact (ih (List.forall_mem_cons.1 h).2).trans (get?_launch (List.forall_mem_cons.1 h).1)

theorem after_append : d.after (before ++ later) = (d.after before).after later := by
  simp only [after, List.foldl_append]

/-- What a run has saved, whether it ended well or not, is what a later run with the same state file
begins with, unless another one has saved there meanwhile. It can be looked at from outside as long
as the path is not too long for that. -/
theorem readState_after (hargs : Invocation.ofArguments l.args = .execute o)
    (hsaved : (execute l.fresh o ((d.after before).filesOf o) l.order).inventory = some inventory)
    (hplace : place pathLimit o.state = .file name) (hlater : ∀ l ∈ later, ¬ l.SavesAt name) :
    readState o.state ((d.after (before ++ l :: later)).read o.state) = .ok inventory ∧
      (o.state.utf8ByteSize ≤ pathLimit - rootLength →
        (d.after (before ++ l :: later)).look? o.state = some (writeState inventory)) := by
  have hget : (d.after (before ++ l :: later)).get? name = some (writeState inventory) := by
    rw [after_append, after, List.foldl_cons]
    refine (get?_after hlater).trans ?_
    rw [launch_eq hargs, save_of_place hsaved hplace]
    exact OrderedMap.get?_insert_self ..
  constructor
  · rw [read, readWithin_of_place hplace hget, readState, ofJson?_writeState]
  · intro hshort
    rw [look?, readWithin_of_place (place_of_size_le hshort hplace) hget]
    rfl

end BalancerSync.Scenario.Directory
