import BalancerSync.Address
import BalancerSync.Proofs.Text.Digits

namespace BalancerSync

theorem mapM_eq_some_iff {α β : Type} {f : α → Option β} {as : List α} {bs : List β} :
    as.mapM f = some bs ↔ as.map f = bs.map some := by
  induction as generalizing bs with
  | nil => cases bs <;> simp
  | cons a as ih =>
    rw [List.mapM_cons]
    cases bs <;> cases h : f a <;> simp [h, ih, Option.bind_eq_some_iff, and_comm]

/-- What is written one by one is read one by one. -/
theorem mapM_map_eq_some {α β : Type} {read : β → Option α} {write : α → β} {as : List α}
    (h : ∀ a ∈ as, read (write a) = some a) : (as.map write).mapM read = some as := by
  rw [mapM_eq_some_iff, List.map_map]
  exact List.map_congr_left h

theorem eq_or_mem_of_mem_intercalate {α : Type} {x y : α} {ls : List (List α)}
    (h : y ∈ [x].intercalate ls) : y = x ∨ ∃ l ∈ ls, y ∈ l := by
  induction ls with
  | nil => cases h
  | cons l ls ih =>
    cases ls with
    | nil =>
      rw [List.intercalate_singleton] at h
      exact .inr ⟨l, List.mem_cons_self, h⟩
    | cons l' ls =>
      rw [List.intercalate_cons_cons, List.append_assoc, List.mem_append, List.singleton_append,
        List.mem_cons] at h
      rcases h with hl | hx | hls
      · exact .inr ⟨l, List.mem_cons_self, hl⟩
      · exact .inl hx
      · exact (ih hls).imp_right fun ⟨k, hk, hy⟩ => ⟨k, List.mem_cons_of_mem _ hk, hy⟩

namespace Address

open Text

theorem readOctet?_toDigits (o : UInt8) : readOctet? (Nat.toDigits 10 o.toNat) = some o := by
  have ho : o.toNat < 256 := o.toNat_lt
  have hlength : (Nat.toDigits 10 o.toNat).length ≤ 3 :=
    (Nat.length_toDigits_le_iff (by decide) (by decide)).2 (by omega)
  have hhead : (Nat.toDigits 10 o.toNat).head? ≠ some '0' ∨
      (Nat.toDigits 10 o.toNat).length = 1 := by
    rcases Nat.eq_zero_or_pos o.toNat with hzero | hpos
    · rw [hzero]
      exact .inr rfl
    · exact .inl (head?_toDigits_ne_zero (by decide) hpos)
  rw [readOctet?, if_pos ⟨hlength, hhead⟩, readNumber?_toDigits (by decide) (by decide)]
  simp [ho]

theorem readV4?_writeOctets (a : AddressV4) : readV4? (writeOctets a.octets) = some a := by
  obtain ⟨octets, hsize⟩ := a
  have hne : (octets.map fun o => Nat.toDigits 10 o.toNat) ≠ [] := by
    intro h
    rw [List.map_eq_nil_iff.1 h] at hsize
    cases hsize
  have hread : (octets.map fun o => Nat.toDigits 10 o.toNat).mapM readOctet? = some octets :=
    mapM_map_eq_some fun o _ => readOctet?_toDigits o
  rw [readV4?, writeOctets,
    List.splitOn_intercalate _ (notMem_map_toDigits (by decide) (by decide) rfl) hne, hread]
  exact dif_pos hsize

theorem readOctet?_eq_none {cs : List Char} {c : Char} (hc : c ∈ cs) (h : digitValue? 10 c = none) :
    readOctet? cs = none := by
  rw [readOctet?, readNumber?_eq_none hc h]
  split <;> rfl

/-- Octets are made of digits, and between them there are points. -/
theorem readV4?_eq_none {cs : List Char} (h : ':' ∈ cs) : readV4? cs = none := by
  refine Option.eq_none_iff_forall_ne_some.2 fun a ha => ?_
  obtain ⟨octets, hoctets, -⟩ := Option.bind_eq_some_iff.1 ha
  rw [mapM_eq_some_iff] at hoctets
  have hcs : ['.'].intercalate (cs.splitOn '.') = cs := List.intercalate_splitOn '.'
  rw [← hcs] at h
  obtain hpoint | ⟨piece, hpiece, hcolon⟩ := eq_or_mem_of_mem_intercalate h
  · cases hpoint
  · have hread : readOctet? piece ∈ octets.map some := hoctets ▸ List.mem_map_of_mem hpiece
    rw [readOctet?_eq_none hcolon rfl] at hread
    simp at hread

theorem readGroup?_toDigits (g : UInt16) : readGroup? (Nat.toDigits 16 g.toNat) = some g := by
  have hlength : (Nat.toDigits 16 g.toNat).length ≤ 4 :=
    (Nat.length_toDigits_le_iff (by decide) (by decide)).2 g.toNat_lt
  rw [readGroup?, if_pos hlength, readNumber?_toDigits (by decide) (by decide)]
  simp

theorem readPieces?_toDigits (dotted : Bool) (groups : List UInt16) :
    readPieces? dotted (groups.map fun g => Nat.toDigits 16 g.toNat) = some groups := by
  induction groups with
  | nil => rfl
  | cons g groups ih =>
    cases groups with
    | nil => simp [readPieces?, readGroup?_toDigits]
    | cons g' groups =>
      rw [List.map_cons] at ih ⊢
      rw [List.map_cons, readPieces?, readGroup?_toDigits, ih]
      · rfl
      · nofun

theorem writeGroups_cons_cons (g g' : UInt16) (groups : List UInt16) :
    writeGroups (g :: g' :: groups) =
      Nat.toDigits 16 g.toNat ++ ':' :: writeGroups (g' :: groups) := by
  simp [writeGroups]

theorem exists_writeGroups_eq_cons (g : UInt16) (groups : List UInt16) :
    ∃ c cs, c ≠ ':' ∧ writeGroups (g :: groups) = c :: cs := by
  obtain ⟨c, cs, hcs⟩ := List.exists_cons_of_ne_nil (Nat.toDigits_ne_nil (n := g.toNat) (b := 16))
  have hnot : ':' ∉ Nat.toDigits 16 g.toNat := notMem_toDigits (by decide) (by decide) rfl
  have hc : c ≠ ':' := by
    rintro rfl
    exact hnot (hcs ▸ List.mem_cons_self)
  cases groups with
  | nil => exact ⟨c, cs, hc, by simpa [writeGroups] using hcs⟩
  | cons g' groups => exact ⟨c, _, hc, by rw [writeGroups_cons_cons, hcs, List.cons_append]⟩

theorem readGroups?_writeGroups (dotted : Bool) (groups : List UInt16) :
    readGroups? dotted (writeGroups groups) = some groups := by
  cases groups with
  | nil => rfl
  | cons g groups =>
    obtain ⟨c, cs, -, hcs⟩ := exists_writeGroups_eq_cons g groups
    rw [readGroups?, if_neg (by rw [hcs]; nofun), writeGroups,
      List.splitOn_intercalate _ (notMem_map_toDigits (by decide) (by decide) rfl) (by nofun),
      readPieces?_toDigits]

theorem splitGap_append {cs : List Char} (h : ':' ∉ cs) (rest : List Char) :
    splitGap (cs ++ rest) = (splitGap rest).map fun (front, back) => (cs ++ front, back) := by
  induction cs with
  | nil => simp
  | cons c cs ih =>
    obtain ⟨hc, hcs⟩ := List.ne_and_not_mem_of_not_mem_cons h
    rw [List.cons_append, splitGap, ih hcs, Option.map_map]
    · rfl
    · rintro _ rfl
      exact absurd rfl hc

theorem splitGap_colon {c : Char} (h : c ≠ ':') (rest : List Char) :
    splitGap (':' :: c :: rest) =
      (splitGap (c :: rest)).map fun (front, back) => (':' :: front, back) := by
  rw [splitGap]
  intro rest' _ hrest
  exact h (List.cons.inj hrest).1

theorem splitGap_writeGroups (groups : List UInt16) (rest : List Char) :
    splitGap (writeGroups groups ++ rest) =
      (splitGap rest).map fun (front, back) => (writeGroups groups ++ front, back) := by
  have hcolon (g : UInt16) : ':' ∉ Nat.toDigits 16 g.toNat :=
    notMem_toDigits (by decide) (by decide) rfl
  induction groups with
  | nil => simp [writeGroups]
  | cons g groups ih =>
    cases groups with
    | nil => simpa [writeGroups] using splitGap_append (hcolon g) rest
    | cons g' groups =>
      obtain ⟨c, cs, hc, hcs⟩ := exists_writeGroups_eq_cons g' groups
      rw [hcs, List.cons_append] at ih
      rw [writeGroups_cons_cons, hcs, List.append_assoc, splitGap_append (hcolon g),
        List.cons_append, List.cons_append, splitGap_colon hc, ih, Option.map_map, Option.map_map]
      simp [Function.comp_def]

theorem zeroRun_spec (groups : List UInt16) :
    List.replicate (zeroRun groups) 0 ++ groups.drop (zeroRun groups) = groups := by
  induction groups with
  | nil => rfl
  | cons g groups ih =>
    by_cases hg : g = 0
    · have hrun : zeroRun (g :: groups) = zeroRun groups + 1 := by simp [zeroRun, hg]
      rw [hrun, List.replicate_succ, List.drop_succ_cons, List.cons_append, ih, hg]
    · have hrun : zeroRun (g :: groups) = 0 := by simp [zeroRun, hg]
      rw [hrun]
      rfl

theorem longestGap_spec (groups : List UInt16) :
    groups.take (longestGap groups).1 ++ List.replicate (longestGap groups).2 0
      ++ groups.drop ((longestGap groups).1 + (longestGap groups).2) = groups := by
  induction groups with
  | nil => rfl
  | cons g groups ih =>
    rw [longestGap]
    generalize longestGap groups = gap at ih ⊢
    obtain ⟨start, length⟩ := gap
    dsimp only at ih ⊢
    split
    · simpa using zeroRun_spec (g :: groups)
    · rw [List.take_succ_cons, Nat.add_right_comm, List.drop_succ_cons, List.cons_append,
        List.cons_append, ih]

/-- A double colon stands for the zeros that are missing. -/
theorem readV6?_of_gap {cs front back : List Char} {before after : List UInt16} {a : AddressV6}
    {zeros : Nat} (hsplit : splitGap cs = some (front, back))
    (hfront : readGroups? false front = some before) (hback : readGroups? true back = some after)
    (hzeros : 0 < zeros) (ha : a.groups = before ++ List.replicate zeros 0 ++ after) :
    readV6? cs = some a := by
  have hsize : before.length + zeros + after.length = 8 := by
    rw [← a.size, ha]
    simp only [List.length_append, List.length_replicate]
  have hmissing : 8 - before.length - after.length = zeros := by omega
  rw [readV6?, hsplit]
  simp only [hfront, hback, Option.bind_eq_bind, Option.bind_some, hmissing]
  rw [if_pos (by omega)]
  simp only [← ha, dif_pos a.size]

theorem readV6?_writeGroups (a : AddressV6) : readV6? (writeGroups a.groups) = some a := by
  have hsplit : splitGap (writeGroups a.groups) = none := by
    simpa [splitGap] using splitGap_writeGroups a.groups []
  rw [readV6?, hsplit, readGroups?_writeGroups]
  exact dif_pos a.size

theorem readGroup?_eq_none {cs : List Char} {c : Char} (hc : c ∈ cs) (h : digitValue? 16 c = none) :
    readGroup? cs = none := by
  rw [readGroup?, readNumber?_eq_none hc h]
  split <;> rfl

theorem mappedOctets?_eq_some_iff {groups : List UInt16} {octets : List UInt8} :
    mappedOctets? groups = some octets ↔ ∃ a b, groups = [0, 0, 0, 0, 0, 0xffff, a, b] ∧
      octets = [(a / 256).toUInt8, (a % 256).toUInt8, (b / 256).toUInt8, (b % 256).toUInt8] := by
  constructor
  · intro h
    unfold mappedOctets? at h
    split at h
    · rename_i a b
      exact ⟨a, b, rfl, (Option.some.inj h).symm⟩
    · cases h
  · rintro ⟨a, b, rfl, rfl⟩
    rfl

theorem join_halves (g : UInt16) :
    (g / 256).toUInt8.toUInt16 * 256 + (g % 256).toUInt8.toUInt16 = g := by
  apply UInt16.toNat_inj.1
  have := g.toNat_lt
  simp
  omega

/-- The last two groups are written as an address of the older family. -/
theorem readV6?_mapped {a : AddressV6} {octets : List UInt8}
    (h : mappedOctets? a.groups = some octets) :
    readV6? ("::ffff:".toList ++ writeOctets octets) = some a := by
  obtain ⟨g, g', hgroups, hoctets⟩ := mappedOctets?_eq_some_iff.1 h
  have hsize : octets.length = 4 := by simp [hoctets]
  have hpoint : readGroup? (writeOctets octets) = none := by
    refine readGroup?_eq_none (c := '.') ?_ rfl
    simp [writeOctets, hoctets]
  have hcolon : ':' ∉ writeOctets octets := by
    intro hmem
    obtain hpoint | ⟨cs, hcs, hmem⟩ := eq_or_mem_of_mem_intercalate hmem
    · cases hpoint
    · exact notMem_map_toDigits (by decide) (by decide) rfl cs hcs hmem
  have hback : readGroups? true ("ffff:".toList ++ writeOctets octets) =
      some (0xffff :: tailGroups ⟨octets, hsize⟩) := by
    have hpieces : ("ffff:".toList ++ writeOctets octets).splitOn ':' =
        ["ffff".toList, writeOctets octets] := by
      rw [← List.splitOn_eq_singleton hcolon]
      exact List.splitOn_append_cons_self_of_not_mem (by decide : ':' ∉ "ffff".toList) _
    have hread : readPieces? true [writeOctets octets] = some (tailGroups ⟨octets, hsize⟩) := by
      rw [readPieces?, hpoint, readV4?_writeOctets ⟨octets, hsize⟩]
      rfl
    have hffff : readGroup? "ffff".toList = some 0xffff := by decide
    rw [readGroups?, if_neg (by simp), hpieces, readPieces?, hffff, hread]
    · rfl
    · nofun
  have hsplit : splitGap ("::ffff:".toList ++ writeOctets octets) =
      some ([], "ffff:".toList ++ writeOctets octets) := rfl
  refine readV6?_of_gap hsplit rfl hback (by decide : 0 < 5) ?_
  simp only [hgroups, tailGroups, hoctets, List.map_cons, List.map_nil, join_halves]
  rfl

theorem readV6?_writeV6 (a : AddressV6) : readV6? (writeV6 a.groups) = some a := by
  rw [writeV6]
  split
  next octets h => exact readV6?_mapped h
  next =>
    have hgap := longestGap_spec a.groups
    generalize longestGap a.groups = gap at hgap ⊢
    obtain ⟨start, length⟩ := gap
    dsimp only at hgap ⊢
    split
    next hlength =>
      refine readV6?_of_gap ?_ (readGroups?_writeGroups false _) (readGroups?_writeGroups true _)
        (by omega) hgap.symm
      rw [List.append_assoc, splitGap_writeGroups]
      simp [splitGap]
    next => exact readV6?_writeGroups a

theorem colon_mem_writeV6 (a : AddressV6) : ':' ∈ writeV6 a.groups := by
  rw [writeV6]
  split
  · simp
  · dsimp only
    split
    · simp
    · obtain ⟨groups, hsize⟩ := a
      match groups, hsize with
      | g :: g' :: groups, _ => simp [writeGroups_cons_cons]

theorem read?_write (a : Address) : read? a.write = some a := by
  cases a with
  | v4 a => simp [read?, write, readV4?_writeOctets]
  | v6 a => simp [read?, write, readV4?_eq_none (colon_mem_writeV6 a), readV6?_writeV6]

end Address

end BalancerSync
