import BalancerSync.Proofs.Ripening
import BalancerSync.Proofs.Success
import BalancerSync.Proofs.Tidy

namespace BalancerSync

variable {fresh : Nat → Identifier} {l l' : Layout} {m m' m'' : Memory} {id j : Identifier}
  {r q : Resource} {kind : Kind}

theorem Layout.Serves.status_eq {v : Inventory} (h : l.Serves v)
    (hr : v.Owns l.service.tag l.loadBalancer id r) : r.status = .ready false := by
  obtain ⟨identifier, hperm⟩ := h
  have hmem : r ∈ l.deployed identifier :=
    hperm.mem_iff.1 (List.mem_map.2 ⟨(id, r), Inventory.mem_share_iff.2 hr, rfl⟩)
  obtain ⟨t, -, rfl⟩ := List.mem_map.1 hmem
  simp

theorem Layout.Serves.of_owns {v v' : Inventory} (h : l.Serves v)
    (ho : ∀ id r, v'.Owns l.service.tag l.loadBalancer id r ↔ v.Owns l.service.tag l.loadBalancer id r) :
    l.Serves v' := by
  obtain ⟨identifier, hperm⟩ := h
  exact ⟨identifier, Inventory.share_eq_of_owns ho ▸ hperm⟩

/-- What belongs to a load balancer is still there, and at most it has been deployed. -/
structure Memory.Matured (l : Layout) (m m' : Memory) : Prop where
  kept : ∀ id r, l.Owns m id r → l.Owns m' id r ∨
    (r.status = .progressing ∧ l.Owns m' id (r.withStatus (.ready false)))
  former : ∀ id r, l.Owns m' id r → ∃ q, l.Owns m id q

theorem Layout.owns_single (m : Memory) : Holding.Single (l.Owns m) :=
  fun _ _ _ hr hq => Option.some.inj (hr.1.symm.trans hq.1)

/-- Objects of the load balancer have at most been looked at, and no look has been forgotten. -/
structure Memory.Awaited (l : Layout) (m m' : Memory) : Prop extends Matured l m m' where
  polls : ∀ id r, l.Owns m' id r → r.status = .progressing →
    (m.polls.get? id).getD 0 ≤ (m'.polls.get? id).getD 0

namespace Memory

namespace Matured

theorem ripens (h : Matured l m m') : Holding.Ripens (l.Owns m) (l.Owns m') := ⟨h.kept, h.former⟩

theorem of_ripens (h : Holding.Ripens (l.Owns m) (l.Owns m')) : Matured l m m' := ⟨h.kept, h.former⟩

theorem of_owns (h : ∀ id r, l.Owns m' id r ↔ l.Owns m id r) : Matured l m m' := .of_ripens (.of_iff h)

theorem refl (m : Memory) : Matured l m m := .of_ripens (.refl _)

/-- An object that is there has been there, or has been deployed since. -/
theorem cases_of_owns (h : Matured l m m') (hr : l.Owns m' id r) : l.Owns m id r ∨
    ∃ q, l.Owns m id q ∧ q.status = .progressing ∧ r = q.withStatus (.ready false) :=
  h.ripens.cases (Layout.owns_single _) hr

theorem trans (h : Matured l m m') (h' : Matured l m' m'') : Matured l m m'' :=
  .of_ripens (h.ripens.trans h'.ripens)

end Matured

theorem Awaited.trans (h : Awaited l m m') (h' : Awaited l m' m'') : Awaited l m m'' where
  toMatured := h.toMatured.trans h'.toMatured
  polls id r hr hs := by
    rcases h'.cases_of_owns hr with hr' | ⟨q, -, -, rfl⟩
    · exact (h.polls id r hr' hs).trans (h'.polls id r hr hs)
    · simp at hs

theorem Polled.matured (h : Polled l.service.tag m m') {steps : Nat} (hf : m.faults.Harmless steps) :
    Matured l m m' where
  kept id r hr := by
    obtain ⟨q, hq, -⟩ := h.exists_owns hr
    rcases h.objects id with hid | ⟨p, hp, hs, -, hid⟩
    · cases hr.1.symm.trans (hid.symm.trans hq.1)
      exact .inl hq
    · cases hr.1.symm.trans hp
      cases hq.1.symm.trans hid
      rw [hf.finalStatus] at hq
      exact .inr ⟨hs, hq⟩
  former id r hr := by
    obtain ⟨q, hq, -⟩ := h.owns_of_owns hr
    exact ⟨q, hq⟩

theorem Got.awaited {out : Except Refusal Resource × Memory} {steps : Nat} (h : m.Got kind id out)
    (hf : m.faults.Harmless steps) (hc : m.inventory.Carries l.service.tag id) :
    Awaited l m out.2 := by
  refine ⟨(h.polled hc).matured hf, fun j q hq hs => ?_⟩
  by_cases hj : id = j
  · subst hj
    cases h with
    | missing hk => exact Nat.le_refl _
    | settled hr hk hs => exact Nat.le_refl _
    | deployed hr hk hs' hp =>
      have hget := hq.1
      rw [Memory.deployed, Inventory.get?_put, if_pos rfl] at hget
      cases hget
      rw [hf.finalStatus, Resource.status_withStatus] at hs
      cases hs
    | counted hr hk hs' hp => simp [Memory.counted]
  · rw [h.polls_of_ne hj]

end Memory

namespace World

variable {w w' w'' : World}

/-- The provider is tidy, and only a program in its section can have a loose object on its load
balancer. -/
structure Sound (fresh : Nat → Identifier) (l : Layout) (w : World) : Prop where
  tidy : w.memory.Tidy fresh l.settings.backoff.steps l.service.tag w.pending
  registered : l.loadBalancer ∈ w.inventory.loadBalancers.keys
  elsewhere : w.inside = false → ∀ id r, w.pending = some id →
    w.inventory.objects.get? id = some r →
    w.inventory.belongsTo l.service.tag l.loadBalancer r = false

structure Resting (fresh : Nat → Identifier) (l : Layout) (w : World) : Prop where
  sound : Sound fresh l w
  outside : w.inside = false
  notLeading : w.leading = none
  here : w.left = false

structure Inside (fresh : Nat → Identifier) (l : Layout) (w : World) : Prop where
  sound : Sound fresh l w
  inside : w.inside = true
  notLeading : w.leading = none
  here : w.left = false

/-- The program stands where it stood. -/
structure Steady (fresh : Nat → Identifier) (l : Layout) (w w' : World) : Prop where
  stance : w'.toStance = w.toStance
  sound : Sound fresh l w'

structure Onward (fresh : Nat → Identifier) (l : Layout) (w w' : World) : Prop where
  stance : w'.toStance = w.toStance
  sound : Sound fresh l w'
  listings : w'.memory.journal.listings = w.memory.journal.listings

/-- Other programs have done something, which is none of this program's business. -/
structure Beside (fresh : Nat → Identifier) (l : Layout) (w w' : World) : Prop
    extends Onward fresh l w w' where
  owns : ∀ id r, l.Owns w'.memory id r ↔ l.Owns w.memory id r
  polls : ∀ id r, l.Owns w.memory id r → w'.memory.polls.get? id = w.memory.polls.get? id
  mine : w.inside = true → w'.pending = w.pending ∧
    ∀ id, w.pending = some id → w'.inventory.objects.get? id = w.inventory.objects.get? id

/-- One listing has been made, and objects of the load balancer have at most been looked at. -/
structure Refreshed (fresh : Nat → Identifier) (l : Layout) (w w' : World) : Prop where
  stance : w'.toStance = w.toStance
  sound : Sound fresh l w'
  matured : w.memory.Matured l w'.memory
  listings : w'.memory.journal.listings = w.memory.journal.listings + 1

/-- Surroundings in which nothing fails and nothing is canceled. A program that is not `alone` shares
its snapshots, and is done before more than `bound` listings have been made. -/
def calm (fresh : Nat → Identifier) (l : Layout) (alone : Bool) (bound : Nat) : Environment World where
  rely w w' := w' = w ∨ (alone = false ∧
    ((w.left = true ∧ w'.toStance = w.toStance) ∨
      (w.left = false ∧ w.leading = none ∧ Beside fresh l w w')))
  allows q w :=
    match q with
    | .isCanceled | .draw | .latest | .remember _ => True
    | .call (.get _ id) => Resting fresh l w ∧ ∃ r, l.Owns w.memory id r
    | .call (.destroy kind id) => Resting fresh l w ∧ (∃ r, l.Owns w.memory id r ∧ r.kind = kind) ∧
      ∀ i p, w.inventory.objects.get? i = some p → id ∉ p.references
    | .call (.create r) => Inside fresh l w ∧ w.pending = none ∧ l.Wants (l.Owns w.memory) r
    | .call (.tag id tag) => Inside fresh l w ∧ w.pending = some id ∧ tag = l.service.tag
    | .exit => Inside fresh l w ∧ w.pending = none
    | .watch (.list tag) => w.left = false ∧ w.inside = false ∧
      (alone = true ∨ w.leading.isSome = true) ∧ tag = l.service.tag
    | .watch (.get _ id) => w.left = false ∧ w.inside = false ∧
      (alone = true ∨ w.leading.isSome = true) ∧ w.inventory.Carries l.service.tag id
    | .sleep _ | .enter => Resting fresh l w
    | .arrive lb => Resting fresh l w ∧ alone = false ∧ lb = l.loadBalancer
    | .release outcome => w.left = false ∧ w.inside = false ∧
      w.leading.map (· + 1) = some w.memory.journal.listings ∧
      outcome = .ok (.ok (w.inventory.snapshot l.service.tag))
    | .leave lb => Resting fresh l w ∧ alone = false ∧ lb = l.loadBalancer ∧
      l.Serves w.inventory ∧ w.memory.journal.listings ≤ bound
    | _ => False
  replies q w reply w' :=
    match q, reply with
    | .enter, _ => w.pending = none ∧ w' = { w with inside := true }
    | .arrive _, .lead => w' = { w with leading := some w.memory.journal.listings }
    | .arrive _, .ended outcome => Refreshed fresh l w w' ∧
      ∃ s, outcome = .ok (.ok s) ∧ s.narrowTo l.loadBalancer = w'.shareSnapshot l
    | .release outcome, reply => reply = outcome ∧ w' = { w with leading := none }
    | .leave _, reply => reply = .ok () ∧ w' = { w with left := true }
    | q, reply => Acts fresh False q w reply w'

theorem Sound.of_eq (h : Sound fresh l w) (hm : w'.memory = w.memory) (hp : w'.pending = w.pending)
    (hi : w'.inside = w.inside) : Sound fresh l w' where
  tidy := hm ▸ hp ▸ h.tidy
  registered := by
    rw [World.inventory, hm]
    exact h.registered
  elsewhere := by
    rw [World.inventory, hm, hp, hi]
    exact h.elsewhere

theorem Sound.polled (h : Sound fresh l w) (hp : Polled l.service.tag w w') : Sound fresh l w' := by
  obtain ⟨hw', hp⟩ := hp
  have hpending : w'.pending = w.pending := by rw [hw']
  have hinside : w'.inside = w.inside := by rw [hw']
  refine ⟨hpending ▸ h.tidy.polled hp, hp.loadBalancers ▸ h.registered, fun hi id r hid hr => ?_⟩
  obtain ⟨q, hq, hb, -⟩ := hp.get?_of_get? hr
  rw [hp.belongsTo, ← Inventory.belongsTo_bare, hb, Inventory.belongsTo_bare]
  exact h.elsewhere (hinside ▸ hi) id q (hpending ▸ hid) hq

/-- Looks change nothing but states of deployment. -/
theorem Sound.got {out : Except Refusal Resource × Memory} (h : Sound fresh l w)
    (hgot : w.memory.Got kind id out) : Sound fresh l { w with memory := out.2 } := by
  have hv := hgot.resembles
  obtain ⟨hissued, hfaults⟩ : out.2.issued = w.memory.issued ∧ out.2.faults = w.memory.faults := by
    cases hgot <;> exact ⟨rfl, rfl⟩
  refine ⟨.of_whole (h.tidy.whole.resembles hv hissued) (hfaults ▸ h.tidy.harmless), ?_, ?_⟩
  · rw [World.inventory, hv.loadBalancers]
    exact h.registered
  · intro hi j q hj hq
    obtain ⟨p, hp, hb, -⟩ := hv.symm.exists_get? hq
    rw [World.inventory, hv.belongsTo, ← Inventory.belongsTo_bare, ← hb, Inventory.belongsTo_bare]
    exact h.elsewhere hi j p hj hp

/-- What refers to an object of the load balancer belongs to it as well. -/
theorem Resting.owns_of_references (h : Resting fresh l w) (hr : l.Owns w.memory id r)
    (hq : w.inventory.objects.get? j = some q) (href : id ∈ q.references) : l.Owns w.memory j q := by
  have hb := h.sound.tidy.closed.belongsTo_of_references hr hq href
  refine ⟨hq, ?_, hb⟩
  rcases h.sound.tidy.closed.tagged j q id r hq hr.1 href hr.2.1 with ht | hp
  · exact ht
  · have := h.sound.elsewhere h.outside j q hp hq
    rw [hb] at this
    cases this

theorem Sound.pending_ne (h : Sound fresh l w) (ht : w.inventory.Carries l.service.tag id) :
    w.pending ≠ some id := fun hp => (h.tidy.loose id hp).2.1 ht

theorem Sound.destroyed (h : Sound fresh l w) (hp : w.pending ≠ some id)
    (href : ∀ i p, w.inventory.objects.get? i = some p → id ∉ p.references) :
    Sound fresh l { w with memory := w.memory.destroyed id } := by
  refine ⟨h.tidy.destroyed hp href, h.registered, fun hi j q hj hq => ?_⟩
  rw [World.inventory, Memory.destroyed, Inventory.get?_remove] at hq
  split at hq
  · cases hq
  · refine (Inventory.belongsTo_remove href hq).trans ?_
    exact h.elsewhere hi j q hj hq

theorem Resting.enter (h : Resting fresh l w) : Inside fresh l { w with inside := true } :=
  ⟨⟨h.sound.tidy, h.sound.registered, nofun⟩, rfl, h.notLeading, h.here⟩

namespace Steady

theorem refl (h : Sound fresh l w) : Steady fresh l w w := ⟨rfl, h⟩

theorem trans (h : Steady fresh l w w') (h' : Steady fresh l w' w'') : Steady fresh l w w'' :=
  ⟨h'.stance.trans h.stance, h'.sound⟩

theorem resting (h : Steady fresh l w w') (hw : Resting fresh l w) : Resting fresh l w' where
  sound := h.sound
  outside := (congrArg Stance.inside h.stance).trans hw.outside
  notLeading := (congrArg Stance.leading h.stance).trans hw.notLeading
  here := (congrArg Stance.left h.stance).trans hw.here

theorem inside (h : Steady fresh l w w') (hw : Inside fresh l w) : Inside fresh l w' where
  sound := h.sound
  inside := (congrArg Stance.inside h.stance).trans hw.inside
  notLeading := (congrArg Stance.leading h.stance).trans hw.notLeading
  here := (congrArg Stance.left h.stance).trans hw.here

end Steady

namespace Onward

theorem refl (h : Sound fresh l w) : Onward fresh l w w := ⟨rfl, h, rfl⟩

theorem trans (h : Onward fresh l w w') (h' : Onward fresh l w' w'') : Onward fresh l w w'' :=
  ⟨h'.stance.trans h.stance, h'.sound, h'.listings.trans h.listings⟩

theorem steady (h : Onward fresh l w w') : Steady fresh l w w' := ⟨h.stance, h.sound⟩

theorem resting (h : Onward fresh l w w') (hw : Resting fresh l w) : Resting fresh l w' :=
  h.steady.resting hw

end Onward

theorem Refreshed.resting (h : Refreshed fresh l w w') (hw : Resting fresh l w) :
    Resting fresh l w' :=
  Steady.resting ⟨h.stance, h.sound⟩ hw

namespace Beside

theorem refl (h : Sound fresh l w) : Beside fresh l w w :=
  ⟨.refl h, fun _ _ => Iff.rfl, fun _ _ _ => rfl, fun _ => ⟨rfl, fun _ _ => rfl⟩⟩

theorem trans (h : Beside fresh l w w') (h' : Beside fresh l w' w'') : Beside fresh l w w'' := by
  refine ⟨h.toOnward.trans h'.toOnward, fun id r => (h'.owns id r).trans (h.owns id r), ?_, ?_⟩
  · intro id r hr
    exact (h'.polls id r ((h.owns id r).2 hr)).trans (h.polls id r hr)
  · intro hi
    obtain ⟨hp, hget⟩ := h.mine hi
    obtain ⟨hp', hget'⟩ := h'.mine ((congrArg Stance.inside h.stance).trans hi)
    exact ⟨hp'.trans hp, fun id hid => (hget' id (hp.trans hid)).trans (hget id hid)⟩

theorem awaited (h : Beside fresh l w w') : w.memory.Awaited l w'.memory where
  toMatured := .of_owns h.owns
  polls id r hr _ := by rw [h.polls id r ((h.owns id r).1 hr)]

theorem shareSnapshot_eq (h : Beside fresh l w w') : w'.shareSnapshot l = w.shareSnapshot l := by
  rw [World.shareSnapshot, Inventory.shareSnapshot, Inventory.share_eq_of_owns h.owns]
  rfl

/-- What others do to objects of theirs. -/
theorem of_destroyed (hs : Sound fresh l w) (hown : ∀ r, ¬ l.Owns w.memory id r)
    (hp : w.pending ≠ some id)
    (href : ∀ i p, w.inventory.objects.get? i = some p → id ∉ p.references) :
    Beside fresh l w { w with memory := w.memory.destroyed id } := by
  have hid {j : Identifier} {q : Resource} (hq : l.Owns w.memory j q) : id ≠ j := by
    rintro rfl
    exact hown q hq
  refine ⟨⟨rfl, hs.destroyed hp href, rfl⟩, fun j q => ?_, fun j q hq => ?_,
    fun _ => ⟨rfl, fun j hj => ?_⟩⟩
  · refine (Inventory.owns_remove_iff href).trans ⟨fun h => h.2, fun h => ⟨(hid h).symm, h⟩⟩
  · exact OrderedMap.get?_erase_of_ne _ (hid hq)
  · refine Inventory.get?_remove.trans (if_neg ?_)
    rintro rfl
    exact hp hj

/-- An object is created for the same service on another load balancer. -/
theorem of_created (ht : l.service.tag = l'.service.tag) (hne : l.loadBalancer ≠ l'.loadBalancer)
    (hs : Sound fresh l' w) (hlb : l.loadBalancer ∈ w.inventory.loadBalancers.keys)
    (hp : w.pending = none) (hi : w.inside = false) (hr : l.Wants (l.Owns w.memory) r) :
    Beside fresh l' w { w with
      memory := w.memory.created fresh r
      pending := some (fresh (w.memory.issued + 1)) } := by
  have htidy := hp ▸ hs.tidy
  have hnot : ¬ w.inventory.Carries l'.service.tag (fresh (w.memory.issued + 1)) :=
    htidy.not_carries _
  refine ⟨⟨rfl, ⟨?_, hs.registered, fun _ j q hj hq => ?_⟩, rfl⟩,
    fun j q => Inventory.owns_put_iff hnot, fun _ _ _ => rfl, fun h => ?_⟩
  · rw [← ht] at htidy ⊢
    exact htidy.created hr hlb
  · cases hj
    rw [World.inventory, Memory.created, Inventory.get?_put, if_pos rfl] at hq
    cases hq
    rw [World.inventory, Memory.created, Inventory.belongsTo_put hnot, Inventory.belongsTo_withStatus,
      Inventory.belongsTo_withIdentifier]
    by_contra hb
    exact hne (Inventory.eq_of_belongsTo (ht ▸ hr.belongsTo) (by simpa using hb))
  · cases hi.symm.trans h

/-- What has been created for the same service on another load balancer is tagged. -/
theorem of_tagged (hs : Sound fresh l w) (hp : w.pending = some id) (hi : w.inside = false) :
    Beside fresh l w { w with
      memory := w.memory.tagged id l.service.tag
      pending := none } := by
  have htidy := hp ▸ hs.tidy
  refine ⟨⟨rfl, ⟨htidy.tagged, hs.registered, fun _ j q hj => nomatch hj⟩, rfl⟩, fun j q => ?_,
    fun _ _ _ => rfl, fun h => ?_⟩
  · refine (Inventory.owns_attach_iff (htidy.loose id rfl).2.2).trans (or_iff_left ?_)
    rintro ⟨rfl, hq, hb⟩
    cases (hs.elsewhere hi _ q hp hq).symm.trans hb
  · cases hi.symm.trans h

end Beside

section

variable {α : Type} {alone : Bool} {bound : Nat} {post : Except Failure α → World → Prop}

theorem beside_of_rely (h : (calm fresh l alone bound).rely w w') (hs : Sound fresh l w)
    (hl : w.left = false) : Beside fresh l w w' := by
  rcases h with rfl | ⟨-, ⟨hleft, -⟩ | ⟨-, -, hb⟩⟩
  · exact .refl hs
  · cases hl.symm.trans hleft
  · exact hb

theorem meets_calm {q : Request} {f : q.Reply → Program α} (hs : Sound fresh l w)
    (hl : w.left = false)
    (h : ∀ w₁, Beside fresh l w w₁ → (calm fresh l alone bound).allows q w₁ ∧
      ∀ reply w₂, (calm fresh l alone bound).replies q w₁ reply w₂ →
        (f reply).Meets (calm fresh l alone bound) post w₂) :
    (Program.request q >>= f).Meets (calm fresh l alone bound) post w :=
  fun _ hw => h _ (beside_of_rely hw hs hl)

def MayFetch (alone : Bool) (w : World) : Prop :=
  w.left = false ∧ w.inside = false ∧ (alone = true ∨ w.leading.isSome = true)

theorem MayFetch.of_acts {cancelable : Prop} {q : Request} {reply : q.Reply}
    (h : MayFetch alone w) (hq : (fetching fresh l.service.tag cancelable).allows q w)
    (hacts : Acts fresh cancelable q w reply w') : MayFetch alone w' := by
  cases hacts.effect with
  | none | watch => exact h
  | call | remember | enter | exit => cases hq

theorem fetch_meets_calm (hs : Sound fresh l w) (hw : MayFetch alone w) :
    (Engine.fetch l.service.tag).Meets (calm fresh l alone bound) (fun out w' =>
      out = .ok (w'.inventory.snapshot l.service.tag) ∧ Polled l.service.tag w w' ∧
        w'.memory.journal.listings = w.memory.journal.listings + 1) w := by
  have hfetch : (Engine.fetch l.service.tag).Meets (fetching fresh l.service.tag False)
      (Engine.Fetched l.service.tag False w) w := Engine.fetch_meets w
  have hcalm : (Engine.fetch l.service.tag).Meets (calm fresh l alone bound) (fun out w' =>
      Engine.Fetched l.service.tag False w out w' ∧ MayFetch alone w') w := by
    refine hfetch.transfer hw ?_ ?_ ?_
    · rintro s s' ⟨hl, hi, ha⟩ (rfl | ⟨hal, ⟨hleft, -⟩ | ⟨-, hlead, -⟩⟩)
      · exact ⟨rfl, hl, hi, ha⟩
      · cases hl.symm.trans hleft
      · rw [hlead] at ha
        simp [hal] at ha
    · rintro q s ⟨hl, hi, ha⟩ hq
      cases q with
      | isCanceled => trivial
      | watch c =>
        cases c with
        | get kind id => exact ⟨hl, hi, ha, hq⟩
        | list tag => exact ⟨hl, hi, ha, hq⟩
        | _ => cases hq
      | _ => cases hq
    · intro q s reply s' hI hq hreply
      have hacts : Acts fresh False q s reply s' := by
        cases q with
        | isCanceled => exact hreply
        | watch c => exact hreply
        | _ => cases hq
      exact ⟨hacts, hI.of_acts hq hacts⟩
  refine hcalm.mono ?_
  rintro out w' ⟨hout, -⟩
  cases out with
  | ok s =>
    obtain ⟨hp, rfl, hlistings⟩ := hout
    exact ⟨rfl, hp, hlistings⟩
  | error failure =>
    rcases hout.2 with ⟨-, hc⟩ | ⟨_, -, hf⟩
    · exact hc.elim
    · have := hs.tidy.harmless.1
      rw [this] at hf
      cases hf

end

end World

end BalancerSync
