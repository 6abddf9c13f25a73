import BalancerSync.Proofs.Ownership

namespace BalancerSync

variable {fresh : Nat → Identifier} {m m' m'' : Memory} {id : Identifier} {r : Resource} {tag : Tag}

namespace Memory

def Known (fresh : Nat → Identifier) (m m' : Memory) (id : Identifier) : Prop :=
  (∃ r, m.inventory.objects.get? id = some r) ∨ m.Bore fresh m' id

structure Ledger (fresh : Nat → Identifier) (m m' : Memory) : Prop where
  known : ∀ id r, m'.inventory.objects.get? id = some r → m.Known fresh m' id
  tags : ∀ tag id r, m'.inventory.objects.get? id = some r → m.inventory.Carries tag id →
    m'.inventory.Carries tag id
  created : ∃ new, m'.journal.created = m.journal.created ++ new ∧
    m.issued + new.length = m'.issued
  destroyed : ∃ gone, m'.journal.destroyed = m.journal.destroyed ++ gone ∧ gone.Nodup ∧
    ∀ id, id ∈ gone ↔ m.Known fresh m' id ∧ m'.inventory.objects.get? id = none

theorem bore_succ_iff (hi : m''.issued = m'.issued + 1) (hle : m.issued ≤ m'.issued) :
    m.Bore fresh m'' id ↔ m.Bore fresh m' id ∨ id = fresh (m'.issued + 1) := by
  constructor
  · rintro ⟨n, hn, hn', rfl⟩
    rcases Nat.lt_or_eq_of_le (hi ▸ hn') with hlt | rfl
    · exact .inl ⟨n, hn, Nat.le_of_lt_succ hlt, rfl⟩
    · exact .inr rfl
  · rintro (⟨n, hn, hn', rfl⟩ | rfl)
    · exact ⟨n, hn, by omega, rfl⟩
    · exact ⟨m'.issued + 1, by omega, by omega, rfl⟩

theorem bore_congr (hi : m''.issued = m'.issued) : m.Bore fresh m'' id ↔ m.Bore fresh m' id := by
  rw [Bore, Bore, hi]

theorem known_congr (hi : m''.issued = m'.issued) :
    m.Known fresh m'' id ↔ m.Known fresh m' id := or_congr_right (bore_congr hi)

/-- An identifier that is still to be given out is not known. -/
theorem Fresh.not_known (hf : m.Fresh fresh) (hle : m.issued ≤ m'.issued) :
    ¬ m.Known fresh m' (fresh (m'.issued + 1)) := by
  rintro (⟨r, hr⟩ | ⟨n, hn, hn', heq⟩)
  · exact hf.unmentioned _ (by omega) (.inl (OrderedMap.mem_keys_of_get? hr))
  · have := hf.distinct n (m'.issued + 1) hn (by omega) heq
    omega

/-- What has been created since, by its identifiers. -/
theorem Fresh.exists_born (hf : m.Fresh fresh) (hle : m.issued ≤ m'.issued) :
    ∃ born : List Identifier, born.Nodup ∧ m.issued + born.length = m'.issued ∧
      ∀ id, id ∈ born ↔ m.Bore fresh m' id := by
  refine ⟨(List.range' (m.issued + 1) (m'.issued - m.issued)).map fresh, ?_, ?_, fun id => ?_⟩
  · refine List.Nodup.map_on ?_ List.nodup_range'
    intro n hn n' hn' heq
    rw [List.mem_range'_1] at hn hn'
    exact hf.distinct n n' (by omega) (by omega) heq
  · rw [List.length_map, List.length_range']
    omega
  · simp only [List.mem_map, List.mem_range'_1, Bore]
    constructor
    · rintro ⟨n, hn, rfl⟩
      exact ⟨n, by omega, by omega, rfl⟩
    · rintro ⟨n, hn, hn', rfl⟩
      exact ⟨n, by omega, rfl⟩

namespace Ledger

theorem refl (m : Memory) : m.Ledger fresh m where
  known _ r hr := .inl ⟨r, hr⟩
  tags _ _ _ _ hc := hc
  created := ⟨[], (List.append_nil _).symm, rfl⟩
  destroyed := by
    refine ⟨[], (List.append_nil _).symm, .nil, fun id => ⟨nofun, ?_⟩⟩
    rintro ⟨⟨r, hr⟩ | ⟨n, hn, hn', -⟩, hnone⟩
    · cases hr.symm.trans hnone
    · omega

theorem issued_le (h : m.Ledger fresh m') : m.issued ≤ m'.issued := by
  obtain ⟨new, -, hnew⟩ := h.created
  omega

/-- Nothing is written down when objects are looked at. -/
theorem resembles (h : m.Ledger fresh m') (hv : m'.inventory.Resembles m''.inventory)
    (hi : m''.issued = m'.issued) (hc : m''.journal.created = m'.journal.created)
    (hd : m''.journal.destroyed = m'.journal.destroyed) : m.Ledger fresh m'' where
  known id r hr := by
    obtain ⟨q, hq, -⟩ := hv.symm.exists_get? hr
    exact (known_congr hi).2 (h.known id q hq)
  tags tag id r hr hcarries := by
    obtain ⟨q, hq, -⟩ := hv.symm.exists_get? hr
    exact hv.carries_iff.2 (h.tags tag id q hq hcarries)
  created := by
    rw [hi, hc]
    exact h.created
  destroyed := by
    obtain ⟨gone, hgone, hn, hmem⟩ := h.destroyed
    refine ⟨gone, hd.trans hgone, hn, fun id => (hmem id).trans ?_⟩
    rw [known_congr hi, hv.get?_eq_none_iff]

theorem create (h : m.Ledger fresh m') (hf : m.Fresh fresh) :
    m.Ledger fresh (m'.created fresh r) := by
  have hle := h.issued_le
  have hnew : ¬ m.Known fresh m' (fresh (m'.issued + 1)) := hf.not_known hle
  have hknown (id : Identifier) : m.Known fresh (m'.created fresh r) id ↔
      m.Known fresh m' id ∨ id = fresh (m'.issued + 1) :=
    (or_congr_right (bore_succ_iff rfl hle)).trans or_assoc.symm
  have hget (id : Identifier) : (m'.created fresh r).inventory.objects.get? id =
      if fresh (m'.issued + 1) = id then some _ else m'.inventory.objects.get? id :=
    Inventory.get?_put
  refine ⟨fun id q hq => (hknown id).2 ?_, fun tag id q hq hc => ?_, ?_, ?_⟩
  · rw [hget] at hq
    split at hq
    next heq => exact .inr heq.symm
    next => exact .inl (h.known id q hq)
  · rw [hget] at hq
    split at hq
    next heq =>
      subst heq
      exact absurd (.inr (.inr (.inl ⟨tag, hc⟩))) (hf.unmentioned _ (by omega))
    next => exact h.tags tag id q hq hc
  · obtain ⟨new, hnew, hlength⟩ := h.created
    refine ⟨new ++ [(r.kind, r.name)], ?_, ?_⟩
    · rw [← List.append_assoc, ← hnew]
      rfl
    · rw [List.length_append, ← Nat.add_assoc, hlength]
      rfl
  · obtain ⟨gone, hgone, hn, hmem⟩ := h.destroyed
    refine ⟨gone, hgone, hn, fun id => ?_⟩
    rw [hmem, hknown, hget]
    split
    next heq =>
      subst heq
      exact iff_of_false (fun h => hnew h.1) (fun h => nomatch h.2)
    next hne => exact and_congr_left fun _ => (or_iff_left (Ne.symm hne)).symm

theorem destroy (h : m.Ledger fresh m') (hr : m'.inventory.objects.get? id = some r) :
    m.Ledger fresh (m'.destroyed id) where
  known j q hq := h.known j q (Inventory.get?_of_get?_remove hq).2
  tags tag j q hq hc := by
    obtain ⟨hne, hq⟩ := Inventory.get?_of_get?_remove hq
    exact Inventory.carries_remove.2 ⟨hne, h.tags tag j q hq hc⟩
  created := h.created
  destroyed := by
    obtain ⟨gone, hgone, hn, hmem⟩ := h.destroyed
    have hid : id ∉ gone := fun hid => nomatch hr.symm.trans ((hmem id).1 hid).2
    refine ⟨gone ++ [id], ?_, ?_, fun j => ?_⟩
    · rw [← List.append_assoc, ← hgone]
      rfl
    · exact List.nodup_append.2 ⟨hn, List.nodup_singleton _, fun j hj i hi heq =>
        hid (List.mem_singleton.1 hi ▸ heq ▸ hj)⟩
    · rw [List.mem_append, hmem, List.mem_singleton, Memory.destroyed, Inventory.get?_remove]
      split
      next heq =>
        subst heq
        exact iff_of_true (.inr rfl) ⟨h.known id r hr, rfl⟩
      next hne => exact or_iff_left (Ne.symm hne)

theorem attach (h : m.Ledger fresh m') : m.Ledger fresh (m'.tagged id tag) where
  known := h.known
  tags tag j q hq hc := Inventory.carries_attach.2 (.inr (h.tags tag j q hq hc))
  created := h.created
  destroyed := h.destroyed

theorem answer (h : m.Ledger fresh m') (hf : m.Fresh fresh) (c : Call) :
    m.Ledger fresh ((provider fresh).answer c m').2 := by
  cases c with
  | get kind id =>
    have hgot := m'.got kind id
    change m.Ledger fresh (m'.get kind id).2
    generalize m'.get kind id = out at hgot
    have hv := hgot.resembles
    cases hgot <;> exact h.resembles hv rfl rfl rfl
  | list tag =>
    have hlisted := m'.wasListed tag
    change m.Ledger fresh (m'.list tag).2
    generalize m'.list tag = out at hlisted
    cases hlisted <;> exact h.resembles (.refl _) rfl rfl rfl
  | create r =>
    have hcreated := m'.wasCreated fresh r
    change m.Ledger fresh (m'.create fresh r).2
    generalize m'.create fresh r = out at hcreated
    cases hcreated with
    | refused refusal hrefused => exact h
    | created hres => exact h.create hf
  | destroy kind id =>
    have hdestroyed := m'.wasDestroyed kind id
    change m.Ledger fresh (m'.destroy kind id).2
    generalize m'.destroy kind id = out at hdestroyed
    cases hdestroyed with
    | refused refusal m'' hv hj hi hrefused =>
      exact h.resembles (hv ▸ .refl _) hi (by rw [hj]) (by rw [hj])
    | destroyed hk href =>
      obtain ⟨r, hr, -⟩ := Inventory.kindOf?_eq_some_iff.1 hk
      exact h.destroy hr
  | tag id tag =>
    have htagged := m'.wasTagged id tag
    change m.Ledger fresh (m'.tag id tag).2
    generalize m'.tag id tag = out at htagged
    cases htagged with
    | refused refusal hrefused => exact h
    | tagged => exact h.attach

end Ledger

/-- What is noted by a provider that is not asked to destroy, or not to create. -/
theorem noted_answer (m : Memory) (c : Call) :
    (Request.Spares (.call c) →
      ((provider fresh).answer c m).2.journal.destroyed = m.journal.destroyed) ∧
    ((∀ r, c ≠ .create r) → ((provider fresh).answer c m).2.issued = m.issued) := by
  cases c with
  | get kind id =>
    have hgot := m.got kind id
    change (_ → (m.get kind id).2.journal.destroyed = _) ∧ (_ → (m.get kind id).2.issued = _)
    generalize m.get kind id = out at hgot
    cases hgot <;> exact ⟨fun _ => rfl, fun _ => rfl⟩
  | list tag =>
    have hlisted := m.wasListed tag
    change (_ → (m.list tag).2.journal.destroyed = _) ∧ (_ → (m.list tag).2.issued = _)
    generalize m.list tag = out at hlisted
    cases hlisted <;> exact ⟨fun _ => rfl, fun _ => rfl⟩
  | create r =>
    refine ⟨fun _ => ?_, fun h => absurd rfl (h r)⟩
    have hcreated := m.wasCreated fresh r
    change (m.create fresh r).2.journal.destroyed = _
    generalize m.create fresh r = out at hcreated
    cases hcreated <;> rfl
  | destroy kind id =>
    refine ⟨fun h => h.elim, fun _ => ?_⟩
    have hdestroyed := m.wasDestroyed kind id
    change (m.destroy kind id).2.issued = _
    generalize m.destroy kind id = out at hdestroyed
    cases hdestroyed with
    | refused refusal m' hv hj hi h => exact hi
    | destroyed hk hr => rfl
  | tag id tag =>
    have htagged := m.wasTagged id tag
    change (_ → (m.tag id tag).2.journal.destroyed = _) ∧ (_ → (m.tag id tag).2.issued = _)
    generalize m.tag id tag = out at htagged
    cases htagged <;> exact ⟨fun _ => rfl, fun _ => rfl⟩

end Memory

end BalancerSync
