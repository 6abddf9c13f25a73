import Mathlib.Data.List.Induction
import BalancerSync.Proofs.Aging
import BalancerSync.Proofs.Readiness

namespace BalancerSync

open Program

variable {σ : Type}

/-- A provider that others ask as well. What they ask for next is answered before each call. -/
def Provider.amid (p : Provider σ) : Provider (σ × List (List Call)) where
  answer c s :=
    let (answer, s') := p.answer c (p.after s.1 (s.2.headD []))
    (answer, (s', s.2.tail))

namespace Engine

variable {steps age n : Nat} {f : Faults} {objects : List Resource} {passes : List (List Look)}
  {looks pass : List Look} {l : Look} {t : Target} {r : Resource} {id : Identifier}
  {out : Except Failure Unit}

def Ripens (f : Faults) (objects : List Resource) (age : Target → Nat) (looks : List Look) : Prop :=
  ∀ before l after, looks = before ++ l :: after → ∀ r ∈ objects, r.identifier = some l.id →
    l.readiness? = some (f.statusAfter
      (age l.target + (before.map Look.target).count l.target + 1) r.name).readiness

theorem mem_targets_iff : t ∈ targets objects ↔ ∃ r ∈ objects, r.identifier = some t.2 ∧ r.kind = t.1 := by
  simp only [targets, List.mem_filterMap, Option.map_eq_some_iff]
  constructor
  · rintro ⟨r, hr, id, hid, rfl⟩
    exact ⟨r, hr, hid, rfl⟩
  · rintro ⟨r, hr, hid, hkind⟩
    exact ⟨r, hr, t.2, hid, by rw [hkind]⟩

/-- A look that comes first counts for those after it. -/
theorem Ripens.cons {age : Target → Nat} (hfirst : ∀ r ∈ objects, r.identifier = some l.id →
      l.readiness? = some (f.statusAfter (age l.target + 1) r.name).readiness)
    (h : Ripens f objects (Function.update age l.target (age l.target + 1)) looks) :
    Ripens f objects age (l :: looks) := by
  intro before l' after heq r hr hid
  cases before with
  | nil =>
    cases (List.cons.inj heq).1
    exact hfirst r hr hid
  | cons b before =>
    obtain ⟨rfl, hrest⟩ := List.cons.inj heq
    rw [h before l' after hrest r hr hid, List.map_cons, List.count_cons]
    by_cases hsame : l.target = l'.target
    · have hcount : age l'.target + 1 + (before.map Look.target).count l'.target =
          age l'.target + ((before.map Look.target).count l'.target + 1) := by omega
      rw [hsame, Function.update_self, hcount]
      simp
    · rw [Function.update_of_ne (Ne.symm hsame)]
      simp [hsame]

/-- Nothing that others ask for concerns the objects. -/
def Undisturbed (objects : List Resource) (calls : List Call) : Prop :=
  ∀ c ∈ calls, ∀ id ∈ identifiers objects, ¬ c.Concerns id

def AllAged (fresh : Nat → Identifier) (f : Faults) (objects : List Resource) (age : Target → Nat)
    (m : Memory) : Prop :=
  ∀ r ∈ objects, ∀ id, r.identifier = some id → m.Aged fresh f r.kind r.name id (age (r.kind, id))

section

variable {fresh : Nat → Identifier} {m : Memory} {calls : List Call} {others : List (List Call)}
  {moments : List Moment} {s' : Memory × List (List Call)} {age : Target → Nat}

theorem AllAged.after (h : AllAged fresh f objects age m) (hcalls : Undisturbed objects calls) :
    AllAged fresh f objects age ((Memory.provider fresh).after m calls) := fun r hr id hid =>
  (h r hr id hid).after fun c hc => hcalls c hc id (Snapshot.mem_identifiers.2 ⟨r, hr, hid⟩)

/-- A look at one of the objects does not concern the other ones. -/
theorem AllAged.get (hn : (identifiers objects).Nodup) (h : AllAged fresh f objects age m)
    (hr : r ∈ objects) (hid : r.identifier = some t.2) (hkind : r.kind = t.1) :
    (∃ found, (m.get t.1 t.2).1 = .ok found ∧ found.status = f.statusAfter (age t + 1) r.name) ∧
    AllAged fresh f objects (Function.update age t (age t + 1)) (m.get t.1 t.2).2 := by
  obtain ⟨kind, id⟩ := t
  obtain rfl : r.kind = kind := hkind
  obtain ⟨hfound, hafter⟩ := (h r hr id hid).get
  refine ⟨hfound, fun q hq j hj => ?_⟩
  by_cases hsame : j = id
  · subst hsame
    cases Snapshot.eq_of_identifiers_nodup hn hr hq hid hj
    rw [Function.update_self]
    exact hafter
  · rw [Function.update_of_ne fun heq => hsame (congrArg Prod.snd heq)]
    exact (h q hq j hj).answer (c := .get r.kind id) (Ne.symm hsame)

/-- Before each look the others have their turn, which makes no difference. -/
theorem ripens_of_shows (hn : (identifiers objects).Nodup)
    (hothers : ∀ calls ∈ others, Undisturbed objects calls) (hage : AllAged fresh f objects age m)
    (htargets : ∀ l ∈ moments.filterMap Moment.look?, l.target ∈ targets objects)
    (h : (Memory.provider fresh).amid.Shows (m, others) moments s') :
    Ripens f objects age (moments.filterMap Moment.look?) := by
  induction moments generalizing m others age with
  | nil =>
    intro before l after heq
    simp at heq
  | cons moment moments ih =>
    cases moment with
    | slept milliseconds => exact ih hothers hage htargets h
    | saw l =>
      obtain ⟨hanswer, hrest⟩ := h
      have hturn : Undisturbed objects (others.headD []) := by
        cases others with
        | nil => nofun
        | cons calls others => exact hothers calls List.mem_cons_self
      obtain ⟨r, hr, hid, hkind⟩ := mem_targets_iff.1 (htargets l (by simp [Moment.look?]))
      obtain ⟨⟨found, hfound, hstatus⟩, hnext⟩ := (AllAged.after hage hturn).get hn hr hid hkind
      rw [List.filterMap_cons_some (by rfl : Moment.look? (.saw l) = some l)]
      apply Ripens.cons
      · intro q hq hqid
        cases Snapshot.eq_of_identifiers_nodup hn hr hq hid hqid
        rw [Look.readiness?_of_ok (hanswer.symm.trans hfound), Resource.readiness, hstatus]
      · exact ih (fun calls hcalls => hothers calls (List.mem_of_mem_tail hcalls)) hnext
          (fun l hl => htargets l (by simp [Moment.look?, hl])) hrest

end

def IsWhole (objects : List Resource) (pass : List Look) : Prop :=
  pass.map Look.target = targets objects

section

variable {before after : List (List Look)} (hn : (identifiers objects).Nodup)
include hn

/-- Each of the passes has looked at each object once. -/
theorem count_flatten (h : ∀ pass ∈ passes, IsWhole objects pass) (ht : t ∈ targets objects) :
    (passes.flatten.map Look.target).count t = passes.length := by
  have hnodup : (targets objects).Nodup := (targets_nodup hn).of_map _
  induction passes with
  | nil => rfl
  | cons pass passes ih =>
    rw [List.flatten_cons, List.map_append, List.count_append, h pass List.mem_cons_self,
      ih fun p hp => h p (List.mem_cons_of_mem _ hp), List.count_eq_one_of_mem hnodup ht,
      List.length_cons, Nat.add_comm]

/-- How an object is seen in the pass after some whole ones. -/
theorem readiness?_of_isWhole (hripens : Ripens f objects (fun _ => 0) passes.flatten)
    (hpasses : passes = before ++ pass :: after) (hbefore : ∀ p ∈ before, IsWhole objects p)
    (hpass : IsWhole objects pass) (hl : l ∈ pass) (hr : r ∈ objects)
    (hid : r.identifier = some l.id) :
    l.readiness? = some (f.statusAfter (before.length + 1) r.name).readiness := by
  have ht : l.target ∈ targets objects := hpass ▸ List.mem_map_of_mem hl
  have hnodup : (pass.map Look.target).Nodup := hpass ▸ (targets_nodup hn).of_map _
  obtain ⟨b, a, rfl⟩ := List.append_of_mem hl
  have hcount : (b.map Look.target).count l.target = 0 := by
    rw [List.map_append, List.map_cons] at hnodup
    exact List.count_eq_zero.2 fun hb => (List.nodup_append.1 hnodup).2.2 _ hb _ List.mem_cons_self rfl
  rw [hripens (before.flatten ++ b) l (a ++ after.flatten) (by simp [hpasses]) r hr hid,
    List.map_append, List.count_append, hcount, count_flatten hn hbefore ht, Nat.zero_add,
    Nat.add_zero]

theorem latest?_of_isWhole (hripens : Ripens f objects (fun _ => 0) passes.flatten)
    (hpasses : passes = before ++ pass :: after) (hbefore : ∀ p ∈ before, IsWhole objects p)
    (hpass : IsWhole objects pass) (hr : r ∈ objects) (hid : r.identifier = some id) :
    latest? (before ++ [pass]).flatten (r.kind, id) =
      some (f.statusAfter (before.length + 1) r.name).readiness := by
  have hnodup : (pass.map Look.target).Nodup := hpass ▸ (targets_nodup hn).of_map _
  have hmem : (r.kind, id) ∈ pass.map Look.target := hpass ▸ mem_targets_iff.2 ⟨r, hr, hid, rfl⟩
  obtain ⟨l, hl, htarget⟩ := List.mem_map.1 hmem
  have hid : r.identifier = some l.id := hid.trans (congrArg (some ·.2) htarget.symm)
  rw [List.flatten_concat, ← htarget, latest?_append_of_mem hnodup hl]
  exact readiness?_of_isWhole hn hripens hpasses hbefore hpass hl hr hid

/-- Until something may be deployed, everything is due. -/
theorem due_eq_targets (hripens : Ripens f objects (fun _ => 0) passes.flatten)
    (hpasses : passes = before ++ after) (hbefore : ∀ p ∈ before, IsWhole objects p)
    (hlt : before.length < max f.readyAfterPolls 1) : due objects before.flatten = targets objects := by
  rcases List.eq_nil_or_concat before with rfl | ⟨init, pass, rfl⟩
  · exact due_nil objects
  · rw [List.concat_eq_append] at *
    apply List.filter_eq_self.2
    intro t ht
    obtain ⟨r, hr, hid, hkind⟩ := mem_targets_iff.1 ht
    rw [List.length_append, List.length_singleton] at hlt
    have hlatest : latest? (init ++ [pass]).flatten t = some .progressing := by
      rw [← Prod.eta t, ← hkind, latest?_of_isWhole hn hripens
        (hpasses.trans (List.append_assoc _ _ _))
        (fun p hp => hbefore p (List.mem_append_left _ hp)) (hbefore pass (by simp)) hr hid,
        f.readiness_statusAfter, if_neg (by omega)]
    apply decide_eq_true
    rw [hlatest]
    simp

theorem isWhole_next (h : Awaits steps objects passes out)
    (hripens : Ripens f objects (fun _ => 0) passes.flatten) (hpasses : passes = before ++ pass :: after)
    (hbefore : ∀ p ∈ before, IsWhole objects p) (hlt : before.length < max f.readyAfterPolls 1) :
    IsWhole objects pass := by
  have hdue := due_eq_targets hn hripens hpasses hbefore hlt
  obtain ⟨hstarts, hlooks⟩ := h.looks_at_due before pass after hpasses
  rw [hdue] at hstarts hlooks
  apply hlooks
  intro l hl
  obtain ⟨b, a, rfl⟩ := List.append_of_mem hl
  obtain ⟨r, hr, hid, -⟩ := mem_targets_iff.1 (hstarts.subset (List.mem_map_of_mem hl))
  rw [hripens (before.flatten ++ b) l (a ++ after.flatten) (by simp [hpasses]) r hr hid]
  nofun

/-- There is no pass after the objects have been deployed, and all passes before look at all of
them. -/
theorem isWhole_of_awaits (h : Awaits steps objects passes out)
    (hripens : Ripens f objects (fun _ => 0) passes.flatten)
    (hpasses : passes = before ++ pass :: after) :
    before.length < max f.readyAfterPolls 1 ∧ ∀ p ∈ before, IsWhole objects p := by
  induction before using List.reverseRecOn generalizing pass after with
  | nil => exact ⟨by simp, nofun⟩
  | append_singleton init last ih =>
    have hsplit : passes = init ++ last :: (pass :: after) :=
      hpasses.trans (List.append_assoc _ _ _)
    obtain ⟨hlt, hinit⟩ := ih hsplit
    have hlast := isWhole_next hn h hripens hsplit hinit hlt
    obtain ⟨t, ht, hprogressing⟩ := h.goes_on (init ++ [last]) pass after hpasses (by simp)
    obtain ⟨r, hr, hid, hkind⟩ := mem_targets_iff.1 ht
    rw [← Prod.eta t, ← hkind, latest?_of_isWhole hn hripens hsplit hinit hlast hr hid,
      f.readiness_statusAfter] at hprogressing
    have hmore : init.length + 1 < f.readyAfterPolls := by
      by_contra hle
      rw [if_pos (by omega)] at hprogressing
      split at hprogressing <;> cases hprogressing
    constructor
    · rw [List.length_append, List.length_singleton]
      omega
    · intro p hp
      rcases List.mem_append.1 hp with hp | hp
      · exact hinit p hp
      · rw [List.mem_singleton.1 hp]
        exact hlast

theorem whole_passes (h : Awaits steps objects passes out)
    (hripens : Ripens f objects (fun _ => 0) passes.flatten) :
    0 < passes.length ∧ passes.length ≤ max f.readyAfterPolls 1 ∧
      ∀ p ∈ passes, IsWhole objects p := by
  obtain ⟨pass, after, hpasses, -⟩ := h.first
  rcases List.eq_nil_or_concat passes with rfl | ⟨init, last, hconcat⟩
  · cases hpasses
  · rw [List.concat_eq_append] at hconcat
    obtain ⟨hlt, hinit⟩ := isWhole_of_awaits hn h hripens hconcat
    have hlast := isWhole_next hn h hripens hconcat hinit hlt
    rw [hconcat, List.length_append, List.length_singleton]
    refine ⟨Nat.succ_pos _, hlt, fun p hp => ?_⟩
    rcases List.mem_append.1 hp with hp | hp
    · exact hinit p hp
    · rw [List.mem_singleton.1 hp]
      exact hlast

/-- How the objects are seen after some of the passes. -/
theorem latest?_take (hripens : Ripens f objects (fun _ => 0) passes.flatten)
    (hwhole : ∀ p ∈ passes, IsWhole objects p) {n : Nat} (hlt : n < passes.length)
    (hr : r ∈ objects) (hid : r.identifier = some id) :
    latest? (passes.take (n + 1)).flatten (r.kind, id) =
      some (f.statusAfter (n + 1) r.name).readiness := by
  have hpasses : passes = passes.take n ++ passes[n] :: passes.drop (n + 1) := by
    rw [← List.drop_eq_getElem_cons hlt, List.take_append_drop]
  have hlatest := latest?_of_isWhole hn hripens hpasses
    (fun p hp => hwhole p (List.mem_of_mem_take hp)) (hwhole _ (List.getElem_mem hlt)) hr hid
  rwa [List.take_append_getElem hlt, List.length_take_of_le hlt.le] at hlatest

/-- The objects of those names, by their identifiers. -/
theorem filter_identifiers (names : List String) :
    (identifiers objects).filter (fun id => ∃ r ∈ objects, r.identifier = some id ∧ r.name ∈ names) =
      identifiers (objects.filter fun r => r.name ∈ names) := by
  rw [identifiers, identifiers, List.filter_filterMap, List.filterMap_filter]
  apply List.filterMap_congr
  intro r hr
  cases hid : r.identifier with
  | none => simp
  | some id =>
    have hiff : (∃ q ∈ objects, q.identifier = some id ∧ q.name ∈ names) ↔ r.name ∈ names := by
      constructor
      · rintro ⟨q, hq, hqid, hname⟩
        cases Snapshot.eq_of_identifiers_nodup hn hq hr hqid hid
        exact hname
      · exact fun hname => ⟨r, hr, hid, hname⟩
    by_cases hname : r.name ∈ names
    · simp [Option.filter, hiff, hname]
    · simp [Option.filter, hiff, hname]

/-- What is told when the objects have been deployed. -/
theorem failed_eq (hpass : IsWhole objects pass) (hlooks : ∀ l ∈ pass, ∀ r ∈ objects,
      r.identifier = some l.id → (l.readiness? = some .failed ↔ r.name ∈ f.deployFailed)) :
    (pass.filter fun l => l.readiness? = some .failed).map Look.id =
      identifiers (objects.filter fun r => r.name ∈ f.deployFailed) := by
  have hids : pass.map Look.id = identifiers objects := by
    rw [← map_snd_targets, ← hpass, List.map_map]
    rfl
  rw [← filter_identifiers hn, ← hids, List.filter_map]
  refine congrArg (List.map _) (List.filter_congr fun l hl => ?_)
  obtain ⟨r, hr, hid, -⟩ := mem_targets_iff.1 (hpass ▸ List.mem_map_of_mem hl : l.target ∈ targets objects)
  rw [Function.comp_apply, decide_eq_decide, hlooks l hl r hr hid]
  constructor
  · exact fun hname => ⟨r, hr, hid, hname⟩
  · rintro ⟨q, hq, hqid, hname⟩
    cases Snapshot.eq_of_identifiers_nodup hn hq hr hqid hid
    exact hname

/-- Every look is in one of the passes, and finds the object as it is then. -/
theorem exists_readiness?_eq (hripens : Ripens f objects (fun _ => 0) passes.flatten)
    (hwhole : ∀ p ∈ passes, IsWhole objects p) (hl : l ∈ passes.flatten) :
    ∃ r ∈ objects, ∃ n < passes.length,
      l.readiness? = some (f.statusAfter (n + 1) r.name).readiness := by
  obtain ⟨pass, hpass, hl⟩ := List.mem_flatten.1 hl
  have ht : l.target ∈ targets objects := hwhole pass hpass ▸ List.mem_map_of_mem hl
  obtain ⟨r, hr, hid, -⟩ := mem_targets_iff.1 ht
  obtain ⟨before, after, hpasses⟩ := List.append_of_mem hpass
  refine ⟨r, hr, before.length, ?_, ?_⟩
  · rw [hpasses, List.length_append, List.length_cons]
    omega
  · apply readiness?_of_isWhole hn hripens hpasses _ (hwhole pass hpass) hl hr hid
    intro p hp
    apply hwhole
    rw [hpasses]
    exact List.mem_append_left _ hp

/-- If the objects take more looks than there are passes, all of them are progressing to the end. -/
theorem timeout_of_ripens (h : Awaits steps objects passes out)
    (hripens : Ripens f objects (fun _ => 0) passes.flatten)
    (hwhole : ∀ p ∈ passes, IsWhole objects p) (hpos : 0 < passes.length)
    (hlt : passes.length < f.readyAfterPolls) (hne : targets objects ≠ []) :
    passes.length = steps + 1 ∧ out = .error (.waitTimeout (identifiers objects)) := by
  have hlatest (p : Nat) (hp : 0 < p) (hle : p ≤ passes.length) (t : Target)
      (ht : t ∈ targets objects) : latest? (passes.take p).flatten t = some .progressing := by
    obtain ⟨r, hr, hid, hkind⟩ := mem_targets_iff.1 ht
    obtain ⟨n, rfl⟩ : ∃ n, p = n + 1 := ⟨p - 1, by omega⟩
    rw [← Prod.eta t, ← hkind, latest?_take hn hripens hwhole hle hr hid,
      f.readiness_statusAfter, if_neg (by omega)]
  have hcalm : ∀ l ∈ passes.flatten, l.readiness? ≠ none ∧ l.readiness? ≠ some .failed := by
    intro l hl
    obtain ⟨r, -, n, hn, hreadiness⟩ := exists_readiness?_eq hn hripens hwhole hl
    rw [hreadiness, f.readiness_statusAfter, if_neg (by omega)]
    exact ⟨nofun, nofun⟩
  have hout : out ≠ .ok () := by
    intro hok
    obtain ⟨p, hp, hle, hall⟩ := h.ok_iff.1 hok
    obtain ⟨t, ht⟩ := List.exists_mem_of_ne_nil _ hne
    cases (hall t ht).symm.trans (hlatest p hp hle t ht)
  obtain ⟨ids, hids⟩ := h.timeout hcalm hout
  obtain ⟨hlen, htold⟩ := h.timeout_last ids hids
  have hall := hlatest passes.length hpos (Nat.le_refl _)
  rw [List.take_length] at hall
  rw [List.filter_eq_self.2 fun t ht => decide_eq_true (hall t ht), map_snd_targets] at htold
  exact ⟨hlen, by rw [hids, htold]⟩

/-- If the objects are deployed in the last pass, those that have failed are told. -/
theorem deployed_of_ripens (h : Awaits steps objects passes out)
    (hripens : Ripens f objects (fun _ => 0) passes.flatten)
    (hwhole : ∀ p ∈ passes, IsWhole objects p) (hpos : 0 < passes.length)
    (hle : f.readyAfterPolls ≤ passes.length) :
    let failed := identifiers (objects.filter fun r => r.name ∈ f.deployFailed)
    (failed = [] ∧ out = .ok ()) ∨ (failed ≠ [] ∧ out = .error (.resourcesFailed failed)) := by
  intro failed
  obtain ⟨init, last, hconcat⟩ := (List.eq_nil_or_concat passes).resolve_left
    (List.ne_nil_of_length_pos hpos)
  rw [List.concat_eq_append] at hconcat
  have hlast : IsWhole objects last := hwhole last (by simp [hconcat])
  have hlen : passes.length = init.length + 1 := by
    rw [hconcat, List.length_append, List.length_singleton]
  have hlooks : ∀ l ∈ last, ∀ r ∈ objects, r.identifier = some l.id →
      (l.readiness? = some .failed ↔ r.name ∈ f.deployFailed) := by
    intro l hl r hr hid
    rw [readiness?_of_isWhole hn hripens hconcat
      (fun p hp => hwhole p (by simp [hconcat, hp])) hlast hl hr hid,
      f.readiness_statusAfter, if_pos (by omega)]
    by_cases hname : r.name ∈ f.deployFailed <;> simp [hname]
  have hfailed : (last.filter fun l => l.readiness? = some .failed).map Look.id = failed :=
    failed_eq hn hlast hlooks
  by_cases hids : failed = []
  · refine .inl ⟨hids, h.ok_iff.2 ⟨passes.length, hpos, Nat.le_refl _, fun t ht => ?_⟩⟩
    obtain ⟨r, hr, hid, hkind⟩ := mem_targets_iff.1 ht
    have hname : r.name ∉ f.deployFailed := by
      intro hname
      have hmem : t.2 ∈ failed :=
        Snapshot.mem_identifiers.2 ⟨r, List.mem_filter.2 ⟨hr, decide_eq_true hname⟩, hid⟩
      rw [hids] at hmem
      cases hmem
    rw [← Prod.eta t, ← hkind, hlen, latest?_take hn hripens hwhole (by omega) hr hid,
      f.readiness_statusAfter, if_pos (by omega), if_neg hname]
  · have hseen : ∀ l ∈ passes.flatten, l.readiness? ≠ none := by
      intro l hl
      obtain ⟨r, -, n, -, hreadiness⟩ := exists_readiness?_eq hn hripens hwhole hl
      rw [hreadiness]
      nofun
    obtain ⟨id, hmem⟩ := List.exists_mem_of_ne_nil _ hids
    rw [← hfailed] at hmem
    obtain ⟨l, hl, -⟩ := List.mem_map.1 hmem
    obtain ⟨hl, hfound⟩ := List.mem_filter.1 hl
    obtain ⟨before, last', hlast', hout⟩ :=
      h.failed hseen ⟨l, by simp [hconcat, hl], of_decide_eq_true hfound⟩
    obtain ⟨-, heq⟩ := List.append_inj' (hconcat.symm.trans hlast') rfl
    cases heq
    exact .inr ⟨hids, by rw [hout, hfailed]⟩

/-- What comes of waiting for objects that are deployed meanwhile. -/
theorem outcome_of_ripens (h : Awaits steps objects passes out)
    (hripens : Ripens f objects (fun _ => 0) passes.flatten) (hne : targets objects ≠ []) :
    let failed := identifiers (objects.filter fun r => r.name ∈ f.deployFailed)
    (f.readyAfterPolls ≤ steps + 1 ∧ passes.length = max f.readyAfterPolls 1 ∧
      ((failed = [] ∧ out = .ok ()) ∨ (failed ≠ [] ∧ out = .error (.resourcesFailed failed)))) ∨
    (steps + 1 < f.readyAfterPolls ∧ passes.length = steps + 1 ∧
      out = .error (.waitTimeout (identifiers objects))) := by
  obtain ⟨hpos, hle, hwhole⟩ := whole_passes hn h hripens
  by_cases hlt : passes.length < f.readyAfterPolls
  · obtain ⟨hlen, hout⟩ := timeout_of_ripens hn h hripens hwhole hpos hlt hne
    exact .inr ⟨hlen ▸ hlt, hlen, hout⟩
  · have hfew := h.few
    exact .inl ⟨by omega, by omega, deployed_of_ripens hn h hripens hwhole hpos (by omega)⟩

end

theorem identifiers_eq_nil_iff (h : ∀ r ∈ objects, ∃ id, r.identifier = some id) :
    identifiers objects = [] ↔ objects = [] := by
  rw [identifiers, List.filterMap_eq_nil_iff, List.eq_nil_iff_forall_not_mem]
  constructor
  · intro hnone r hr
    obtain ⟨id, hid⟩ := h r hr
    cases hid.symm.trans (hnone r hr)
  · exact fun hnil r hr => absurd hr (hnil r)

theorem Awaits.target_mem (h : Awaits steps objects passes out) (hl : l ∈ passes.flatten) :
    l.target ∈ targets objects := by
  obtain ⟨pass, hpass, hl⟩ := List.mem_flatten.1 hl
  obtain ⟨before, after, hpasses⟩ := List.append_of_mem hpass
  have hstarts := (h.looks_at_due before pass after hpasses).1
  exact (due_sublist _ _).subset (hstarts.subset (List.mem_map_of_mem hl))

theorem filterMap_look?_moments (w : Wait) :
    w.moments.filterMap Moment.look? = w.passes.flatten := by
  have hsaw (looks : List Look) : (looks.map Moment.saw).filterMap Moment.look? = looks := by
    rw [List.filterMap_map]
    exact List.filterMap_some
  obtain ⟨paused, last⟩ := w
  rw [Wait.moments, Wait.passes, List.filterMap_append, hsaw, List.flatten_concat]
  congr 1
  induction paused with
  | nil => rfl
  | cons e paused ih =>
    rw [List.flatMap_cons, List.filterMap_append, List.filterMap_append, hsaw, ih]
    simp [Moment.look?]

theorem count_event (moments : List Moment) (t : Target) :
    (moments.map Moment.event).count (.called (.get t.1 t.2)) =
      ((moments.filterMap Moment.look?).map Look.target).count t := by
  induction moments with
  | nil => rfl
  | cons moment moments ih =>
    cases moment with
    | slept milliseconds =>
      rw [List.map_cons, List.count_cons, ih,
        List.filterMap_cons_none (by rfl : Moment.look? (.slept milliseconds) = none)]
      simp [Moment.event]
    | saw l =>
      rw [List.map_cons, List.count_cons, ih,
        List.filterMap_cons_some (by rfl : Moment.look? (.saw l) = some l), List.map_cons,
        List.count_cons]
      simp [Moment.event, Look.event, Look.target, Prod.ext_iff]

section

variable {k : Conditions (Memory × List (List Call))}
  {s s' : Surroundings (Memory × List (List Call))} {fresh : Nat → Identifier} {m : Memory}
  {calls : List Call} {others : List (List Call)} {w : Wait}

/-- The objects are as old as they were looked at since they were created. -/
theorem ripens_of_saw (hsaw : s.Saw k w.moments s') (hown : k.own = (Memory.provider fresh).amid)
    (hprovider : s.provider = ((Memory.provider fresh).after m calls, others))
    (hm : m.Orderly fresh f) (hn : (identifiers objects).Nodup)
    (hcreated : ∀ r ∈ objects, m.Created fresh calls r)
    (hothers : ∀ calls ∈ others, Undisturbed objects calls)
    (hawaits : Awaits steps objects w.passes out) :
    Ripens f objects (fun _ => 0) w.passes.flatten := by
  have hshows := hsaw.shows
  have hage : AllAged fresh f objects (fun _ => 0) ((Memory.provider fresh).after m calls) :=
    fun r hr _ hid => hm.created (hcreated r hr) hid
  rw [hown, hprovider] at hshows
  rw [← filterMap_look?_moments]
  refine ripens_of_shows hn hothers hage (fun l hl => ?_) hshows
  rw [filterMap_look?_moments] at hl
  exact hawaits.target_mem hl

theorem count_of_saw (hsaw : s.Saw k w.moments s') (hn : (identifiers objects).Nodup)
    (hwhole : ∀ pass ∈ w.passes, IsWhole objects pass) :
    ∀ r ∈ objects, ∀ id, r.identifier = some id →
      s'.events.count (.called (.get r.kind id)) =
        s.events.count (.called (.get r.kind id)) + w.passes.length := by
  intro r hr id hid
  have hlooks := count_event w.moments (r.kind, id)
  rw [filterMap_look?_moments, count_flatten hn hwhole (mem_targets_iff.2 ⟨r, hr, hid, rfl⟩)]
    at hlooks
  rw [hsaw.events, List.count_append, List.count_reverse, hlooks, Nat.add_comm]

end

/-- Waiting for objects that were created comes to an end, which is told by the number of looks that
they take and by their names. Nothing else that happens makes a difference, as long as nobody else
looks at the objects or tries to destroy them. -/
theorem waitReady_polls {k : Conditions (Memory × List (List Call))}
    {s : Surroundings (Memory × List (List Call))} {b : Backoff} {fresh : Nat → Identifier}
    {m : Memory} {calls : List Call} {others : List (List Call)} (hs : s.Uncanceled k)
    (hl : s.leads = none) (hown : k.own = (Memory.provider fresh).amid)
    (hprovider : s.provider = ((Memory.provider fresh).after m calls, others))
    (hm : m.Orderly fresh f) (hb : b.validate = .ok ()) (hne : objects ≠ [])
    (hn : (identifiers objects).Nodup) (hcreated : ∀ r ∈ objects, m.Created fresh calls r)
    (hothers : ∀ calls ∈ others, Undisturbed objects calls) :
    let failed := objects.filter fun r => r.name ∈ f.deployFailed
    ∃ out s', (waitReady b objects).run (Surroundings.handler k) s = (some out, s') ∧
      (out = .ok () ↔ f.readyAfterPolls ≤ b.steps + 1 ∧ failed = []) ∧
      (out = .error (.resourcesFailed (identifiers failed)) ↔
        f.readyAfterPolls ≤ b.steps + 1 ∧ failed ≠ []) ∧
      (out = .error (.waitTimeout (identifiers objects)) ↔ b.steps + 1 < f.readyAfterPolls) ∧
      ∀ r ∈ objects, ∀ id, r.identifier = some id →
        s'.events.count (.called (.get r.kind id)) = s.events.count (.called (.get r.kind id)) +
          if f.readyAfterPolls ≤ b.steps + 1 then max f.readyAfterPolls 1 else b.steps + 1 := by
  intro failed
  have hid : ∀ r ∈ objects, ∃ id, r.identifier = some id := by
    intro r hr
    obtain ⟨before, q, after, id, hcalls, hcreate, hid, hrest⟩ := hcreated r hr
    exact ⟨id, hid⟩
  have hfailed : identifiers failed = [] ↔ failed = [] :=
    identifiers_eq_nil_iff fun r hr => hid r (List.mem_of_mem_filter hr)
  have htargets : targets objects ≠ [] := by
    intro hnil
    apply hne
    rw [← identifiers_eq_nil_iff hid, ← map_snd_targets, hnil, List.map_nil]
  obtain ⟨w, out, s', hrun, hsaw, hw⟩ := exists_waits hs hl hb objects
  have hawaits := hw.awaits (targets_nodup hn)
  have hripens := ripens_of_saw hsaw hown hprovider hm hn hcreated hothers hawaits
  have hcount := count_of_saw hsaw hn (whole_passes hn hawaits hripens).2.2
  refine ⟨out, s', hrun, ?_⟩
  rcases outcome_of_ripens hn hawaits hripens htargets with
    ⟨hle, hlen, hdeployed⟩ | ⟨hlt, hlen, hout⟩
  · rw [if_pos hle, ← hlen, ← Nat.not_le]
    rcases hdeployed with ⟨hnil, hout⟩ | ⟨hnil, hout⟩
    · have hnone : failed = [] := hfailed.1 hnil
      exact ⟨by simp [hout, hle, hnone], by simp [hout, hnone], by simp [hout, hle], hcount⟩
    · have hsome : failed ≠ [] := fun h => hnil (hfailed.2 h)
      exact ⟨by simp [hout, hsome], iff_of_true hout ⟨hle, hsome⟩, by simp [hout, hle], hcount⟩
  · have hmore : ¬ f.readyAfterPolls ≤ b.steps + 1 := Nat.not_le.2 hlt
    rw [if_neg hmore, ← hlen]
    refine ⟨?_, ?_, iff_of_true hout (hlen ▸ hlt), hcount⟩
    · simp [hout, hmore, hlen]
    · simp [hout, hmore, hlen]

end Engine

namespace Sample

/-- Of two objects one is not deployed, which is known after the second pass. Before each look
others ask for something else. -/
def slow : Memory :=
  { Memory.ofInventory inventory 0 with
    faults := { Faults.none with readyAfterPolls := 2, deployFailed := ["b"] } }

def orders : List Resource :=
  ["a", "b"].map fun name => .backend ⟨none, name, ⟨"lb-1"⟩, .tcp, .tcp, .progressing⟩

def ordered : List Resource :=
  ["a", "b"].mapIdx fun i name =>
    .backend ⟨some (.scattered (i + 1)), name, ⟨"lb-1"⟩, .tcp, .tcp, .progressing⟩

def neighbours : List (List Call) :=
  [[.list (.ofService "2"), .get .backend ⟨"b-2"⟩], [.destroy .frontend ⟨"f-1"⟩],
    [.create (.backend ⟨none, "b", ⟨"lb-2"⟩, .tcp, .tcp, .progressing⟩)]]

def ordering : Conditions (Memory × List (List Call)) :=
  ⟨(Memory.provider .scattered).amid, (Memory.provider .scattered).amid, fun _ => false⟩

def waiting : Surroundings (Memory × List (List Call)) :=
  .initial ((Memory.provider .scattered).after slow (orders.map .create), neighbours)

end Sample

theorem sample_polls : Sample.waiting.Uncanceled Sample.ordering ∧ Sample.waiting.leads = none ∧
    Sample.slow.Orderly .scattered Sample.slow.faults ∧ Backoff.standard.validate = .ok () ∧
    (identifiers Sample.ordered).Nodup ∧
    (∀ r ∈ Sample.ordered, Sample.slow.Created .scattered (Sample.orders.map .create) r) ∧
    (∀ calls ∈ Sample.neighbours, Engine.Undisturbed Sample.ordered calls) ∧
    ∃ s', (Engine.waitReady .standard Sample.ordered).run (Surroundings.handler Sample.ordering)
        Sample.waiting = (some (.error (.resourcesFailed [.scattered 2])), s') ∧
      ∀ r ∈ Sample.ordered, ∀ id, r.identifier = some id →
        s'.events.count (.called (.get r.kind id)) = 2 := by
  have hs : Sample.waiting.Uncanceled Sample.ordering := ⟨rfl, rfl, fun _ => rfl⟩
  have hm : Sample.slow.Orderly .scattered Sample.slow.faults :=
    .of_fresh (Memory.fresh_scattered (by decide +kernel)) rfl
  have hb : Backoff.standard.validate = .ok () := by decide +kernel
  have hn : (identifiers Sample.ordered).Nodup := by decide +kernel
  have hcreated : ∀ r ∈ Sample.ordered,
      Sample.slow.Created .scattered (Sample.orders.map .create) r := by
    intro r hr
    simp only [Sample.ordered, List.mapIdx_cons, List.mapIdx_nil, List.mem_cons, List.not_mem_nil,
      or_false] at hr
    rcases hr with rfl | rfl
    · exact ⟨[], _, _, .scattered 1, rfl, by decide +kernel, rfl, rfl, rfl, by decide +kernel⟩
    · exact ⟨[_], _, [], .scattered 2, rfl, by decide +kernel, rfl, rfl, rfl, nofun⟩
  have hothers : ∀ calls ∈ Sample.neighbours, ∀ c ∈ calls, ∀ id ∈ identifiers Sample.ordered,
      ¬ c.Concerns id := by decide +kernel
  obtain ⟨out, s', hrun, -, hfailed, -, hcount⟩ := Engine.waitReady_polls hs rfl rfl rfl hm hb
    (by decide +kernel) hn hcreated hothers
  cases hfailed.2 ⟨by decide +kernel, by decide +kernel⟩
  exact ⟨hs, rfl, hm, hb, hn, hcreated, hothers, s', hrun, hcount⟩

end BalancerSync
