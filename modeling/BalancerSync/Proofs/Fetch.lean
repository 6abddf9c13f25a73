import BalancerSync.Engine.Fetch
import BalancerSync.Proofs.Snapshot
import BalancerSync.Proofs.World

namespace BalancerSync

namespace World

variable {fresh : Nat → Identifier} {cancelable : Prop} {tag : Tag} {w w' : World}

def Polled (tag : Tag) (w w' : World) : Prop :=
  w' = { w with memory := w'.memory } ∧ Memory.Polled tag w.memory w'.memory

theorem Polled.refl (w : World) : Polled tag w w := ⟨rfl, .refl _⟩

theorem Polled.trans {w'' : World} (h : Polled tag w w') (h' : Polled tag w' w'') :
    Polled tag w w'' := ⟨by rw [h'.1, h.1], h.2.trans h'.2⟩

def fetching (fresh : Nat → Identifier) (tag : Tag) (cancelable : Prop) : Environment World where
  rely w w' := w' = w
  allows q w :=
    match q with
    | .isCanceled => True
    | .watch (.list tag') => tag' = tag
    | .watch (.get _ id) => w.inventory.Carries tag id
    | _ => False
  replies := Acts fresh cancelable

end World

namespace Engine

open Program World

variable {fresh : Nat → Identifier} {cancelable : Prop} {tag : Tag} {w w' : World}

/-- What comes of fetching the objects of a listing: they are as they are in the end. -/
def FetchedListed (tag : Tag) (cancelable : Prop) (ids : List Identifier) (w : World) :
    Except Failure (List Resource) → World → Prop
  | .ok rs, w' => Polled tag w w' ∧ w'.memory.journal.listings = w.memory.journal.listings ∧
    List.Forall₂ (fun id r => w'.inventory.objects.get? id = some r) ids rs ∧
    ∀ j, j ∉ ids → w'.inventory.objects.get? j = w.inventory.objects.get? j
  | .error failure, w' => Polled tag w w' ∧ failure = .canceled ∧ cancelable

theorem fetchListed_meets (entries : List (Identifier × Kind)) (hn : (entries.map (·.1)).Nodup)
    (hk : ∀ e ∈ entries, w.inventory.kindOf? e.1 = some e.2 ∧ w.inventory.Carries tag e.1) :
    (fetchListed (entries.map fun e => ⟨e.1, e.2.typeIdentifier⟩)).Meets
      (fetching fresh tag cancelable)
      (FetchedListed tag cancelable (entries.map (·.1)) w) w := by
  induction entries generalizing w with
  | nil => exact ⟨.refl w, rfl, .nil, fun _ _ => rfl⟩
  | cons e entries ih =>
    obtain ⟨id, kind⟩ := e
    have hn := List.nodup_cons.1 hn
    obtain ⟨hkind, htag⟩ := hk (id, kind) (by simp)
    simp only [List.map_cons, fetchListed, Kind.ofTypeIdentifier?_typeIdentifier]
    rintro w rfl
    refine ⟨htag, ?_⟩
    rintro reply w₁ (⟨hc, rfl, rfl⟩ | ⟨a, rfl, hget⟩)
    · exact ⟨.refl _, rfl, hc⟩
    · rw [answer_get] at hget
      obtain ⟨rfl, rfl⟩ := Prod.mk.inj hget
      have hgot := w.memory.got kind id
      obtain ⟨r, hr, hget, hrk⟩ := hgot.get? hkind
      have hpolled : Polled tag w { w with memory := (w.memory.get kind id).2 } :=
        ⟨rfl, hgot.polled htag⟩
      rw [hr]
      have hk' : ∀ e ∈ entries, (w.memory.get kind id).2.inventory.kindOf? e.1 = some e.2 ∧
          (w.memory.get kind id).2.inventory.Carries tag e.1 := by
        intro e he
        have hne : id ≠ e.1 := fun h => hn.1 (List.mem_map.2 ⟨e, he, h.symm⟩)
        obtain ⟨hek, het⟩ := hk e (List.mem_cons_of_mem _ he)
        rw [Inventory.kindOf?, hgot.get?_of_ne hne]
        exact ⟨hek, hpolled.2.carries_iff.2 het⟩
      refine (ih (w := { w with memory := (w.memory.get kind id).2 }) hn.2 hk').bind ?_ ?_
      · rintro rs w₂ ⟨hp, hl, hrs, hother⟩
        refine ⟨hpolled.trans hp, hl.trans hgot.listings, .cons ?_ hrs, fun j hj => ?_⟩
        · rw [hother id hn.1]
          exact hget
        · rw [hother j fun h => hj (List.mem_cons_of_mem _ h)]
          exact hgot.get?_of_ne fun h => hj (h ▸ List.mem_cons_self)
      · rintro failure w₂ ⟨hp, hc⟩
        exact ⟨hpolled.trans hp, hc⟩

/-- What a listing tells of the objects that carry the tag. -/
theorem map_listed_eq (v : Inventory) (tag : Tag) :
    (v.tagged tag).map (fun e => (⟨e.1, e.2.kind.typeIdentifier⟩ : Listed)) =
      ((v.tagged tag).map fun e => (e.1, e.2.kind)).map fun e => ⟨e.1, e.2.typeIdentifier⟩ := by
  rw [List.map_map]
  rfl

theorem map_fst_listed (v : Inventory) (tag : Tag) :
    ((v.tagged tag).map fun e => (e.1, e.2.kind)).map (·.1) = (v.tagged tag).map (·.1) := by
  rw [List.map_map]
  rfl

/-- The objects that are found under the identifiers of a listing are all that carries the tag. -/
theorem map_tagged_eq {v v' : Inventory} {rs : List Resource} (ht : v'.tags = v.tags)
    (hgone : ∀ id, v.objects.get? id = none → v'.objects.get? id = none)
    (hrs : List.Forall₂ (fun id r => v'.objects.get? id = some r) ((v.tagged tag).map (·.1)) rs) :
    (v'.tagged tag).map (·.2) = rs := by
  have hids : v'.taggedIds tag = v.taggedIds tag := by rw [Inventory.taggedIds, ht]; rfl
  rw [Inventory.tagged, hids]
  rw [Inventory.tagged] at hrs
  generalize v.taggedIds tag = ids at hrs ⊢
  induction ids generalizing rs with
  | nil =>
    cases hrs
    rfl
  | cons id ids ih =>
    cases hv : v.objects.get? id with
    | none =>
      simp only [hv, hgone id hv, List.filterMap_cons, Option.map_none] at hrs ⊢
      exact ih hrs
    | some q =>
      simp only [hv, List.filterMap_cons, Option.map_some, List.map_cons] at hrs
      cases hrs with
      | cons hr hrs =>
        simp only [hr, List.filterMap_cons, Option.map_some, List.map_cons, ih hrs]

def Fetched (tag : Tag) (cancelable : Prop) (w : World) : Except Failure Snapshot → World → Prop
  | .ok s, w' => Polled tag w w' ∧ s = w'.inventory.snapshot tag ∧
    w'.memory.journal.listings = w.memory.journal.listings + 1
  | .error failure, w' => Polled tag w w' ∧ ((failure = .canceled ∧ cancelable) ∨
    ∃ refusal, failure = .provider refusal ∧ w.memory.faults.failListing = true)

theorem fetch_meets (w : World) :
    (fetch tag).Meets (fetching fresh tag cancelable) (Fetched tag cancelable w) w := by
  have hlisting : Polled tag w { w with memory := w.memory.listing } :=
    ⟨rfl, .of_inventory_eq rfl rfl rfl rfl⟩
  rintro w rfl
  refine ⟨trivial, ?_⟩
  rintro canceled w ⟨hc, rfl⟩
  cases canceled with
  | true => exact ⟨.refl _, .inl ⟨rfl, hc rfl⟩⟩
  | false =>
    rintro w rfl
    refine ⟨rfl, ?_⟩
    rintro reply w₁ (⟨hc, rfl, rfl⟩ | ⟨a, rfl, hlist⟩)
    · exact ⟨.refl _, .inl ⟨rfl, hc⟩⟩
    · rw [answer_list] at hlist
      obtain ⟨rfl, rfl⟩ := Prod.mk.inj hlist
      have hout := w.memory.wasListed tag
      generalize w.memory.list tag = out at hout
      cases hout with
      | failed hf => exact ⟨hlisting, .inr ⟨_, rfl, hf⟩⟩
      | nothing ht =>
        refine ⟨hlisting, ?_, rfl⟩
        change Snapshot.empty = Snapshot.ofList ((w.inventory.tagged tag).map (·.2))
        rw [ht]
        rfl
      | listed =>
        have hentries := w.inventory.tagged_ids_nodup tag
        have hids := map_fst_listed w.inventory tag
        have hfetch := @fetchListed_meets fresh cancelable tag { w with memory := w.memory.listing }
          ((w.inventory.tagged tag).map fun e => (e.1, e.2.kind)) (hids ▸ hentries) (by
            intro e he
            obtain ⟨⟨id, r⟩, hr, rfl⟩ := List.mem_map.1 he
            obtain ⟨ht, hr⟩ := Inventory.mem_tagged_iff.1 hr
            exact ⟨Inventory.kindOf?_eq_some_iff.2 ⟨r, hr, rfl⟩, ht⟩)
        rw [hids, ← map_listed_eq] at hfetch
        refine hfetch.bind ?_ ?_
        · rintro rs w₂ ⟨hp, hl, hrs, hother⟩
          refine ⟨hlisting.trans hp, ?_, hl⟩
          refine congrArg Snapshot.ofList (map_tagged_eq hp.2.tags (fun id hid => ?_) hrs).symm
          rcases hp.2.objects id with h | ⟨r, hr, -⟩
          · exact h.trans hid
          · cases hid.symm.trans hr
        · rintro failure w₂ ⟨hp, hc⟩
          exact ⟨hlisting.trans hp, .inl hc⟩

end Engine

end BalancerSync
