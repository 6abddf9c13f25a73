import BalancerSync.Proofs.Convergence
import BalancerSync.Proofs.Rounds

namespace BalancerSync

/-- A service that is to be served by several load balancers. -/
structure Fleet where
  loadBalancers : List Identifier
  service : Service
  settings : Settings

namespace Fleet

abbrev layout (f : Fleet) (lb : Identifier) : Layout := ⟨f.service, lb, f.settings⟩

def meeting (f : Fleet) : Rendezvous Identifier Shared :=
  f.loadBalancers.foldl (fun m lb => (m.register lb).2) .empty

/-- A task for each load balancer, and no request made so far. -/
def schedule (f : Fleet) (m : Memory) (draws : List Binary64) : Schedule Memory Unit :=
  { (Schedule.initial m f.meeting : Schedule Memory Unit) with
    draws
    tasks := f.loadBalancers.map fun lb =>
      .start (Reconciliation.shared (f.layout lb)).reconcile false }

end Fleet

namespace World.Beside

variable {fresh : Nat → Identifier} {f : Fleet} {lb lb' id : Identifier} {w w' : World}
  {r : Resource} {kind : Kind}

/-- What belongs to one load balancer does not belong to another one. -/
theorem not_owns (hne : lb ≠ lb') {m : Memory} (hr : (f.layout lb).Owns m id r) (q : Resource) :
    ¬ (f.layout lb').Owns m id q := by
  intro hq
  cases hr.1.symm.trans hq.1
  exact hne (Inventory.eq_of_belongsTo hr.2.2 hq.2.2)

/-- Another program looks at an object of its own. -/
theorem of_get (hne : lb ≠ lb') (hs : Sound fresh (f.layout lb') w)
    (hr : (f.layout lb).Owns w.memory id r) :
    Beside fresh (f.layout lb') w { w with memory := (w.memory.get kind id).2 } := by
  have hgot := w.memory.got kind id
  have hnot := not_owns hne hr
  refine ⟨⟨rfl, hs.polled ⟨rfl, hgot.polled hr.2.1⟩, hgot.listings⟩,
    fun j q => hgot.owns_iff hr.2.1 hnot, fun j q hq => ?_, fun _ => ⟨rfl, fun j hj => ?_⟩⟩
  · refine hgot.polls_of_ne ?_
    rintro rfl
    exact hnot q hq
  · refine hgot.get?_of_ne ?_
    rintro rfl
    exact (hs.tidy.loose _ hj).2.1 hr.2.1

end World.Beside

namespace World

variable {fresh : Nat → Identifier} {f : Fleet} {l : Layout} {lb lb' : Identifier} {w w' : World}
  {alone : Bool} {bound : Nat} {c : Call}

/-- What a leader may ask for leaves everything as it was but for looks at tagged objects. -/
theorem polled_of_allowed (hq : (calm fresh l alone bound).allows (.watch c) w) :
    World.Polled l.service.tag w (w.answer fresh c).2 := by
  cases c with
  | get kind id => exact ⟨rfl, (w.memory.got kind id).polled hq.2.2.2⟩
  | list tag =>
    have hlisted := w.memory.wasListed tag
    rw [answer_list]
    generalize w.memory.list tag = out at hlisted
    cases hlisted <;> exact ⟨rfl, .of_inventory_eq rfl rfl rfl rfl⟩
  | _ => cases hq

/-- A call that is allowed to one program is none of the business of the others. -/
theorem beside_of_allowed (hne : lb ≠ lb')
    (hq : (calm fresh (f.layout lb) alone bound).allows (.call c) w) (hm : w'.memory = w.memory)
    (hp : w'.pending = w.pending) (hs : Sound fresh (f.layout lb') w')
    (hi : w.inside = true → w'.inside = false) :
    Beside fresh (f.layout lb') w' { w' with
      memory := (w.answer fresh c).2.memory
      pending := (w.answer fresh c).2.pending } := by
  cases c with
  | get kind id =>
    obtain ⟨hw, r, hr⟩ := hq
    rw [← hm] at hr
    rw [answer_get, ← hm, ← hp]
    exact .of_get hne hs hr
  | list tag => cases hq
  | create r =>
    obtain ⟨hw, hp', hr⟩ := hq
    have hcreate := Memory.Tidy.create_eq hw.sound.tidy (hr.resolves hw.sound.registered)
    have hlb : lb ∈ w'.inventory.loadBalancers.keys := by
      rw [World.inventory, hm]
      exact hw.sound.registered
    rw [answer_create, hcreate]
    rw [← hm] at hr ⊢
    exact .of_created (l := f.layout lb) rfl hne hs hlb (hp.trans hp') (hi hw.inside) hr
  | destroy kind id =>
    obtain ⟨hw, ⟨r, hr, rfl⟩, href⟩ := hq
    rw [answer_destroy, hw.sound.tidy.destroy_eq hr.1 href, ← hp]
    rw [World.inventory, ← hm] at href
    rw [← hm] at hr ⊢
    exact .of_destroyed hs (Beside.not_owns hne hr) (hs.pending_ne hr.2.1) href
  | tag id tag =>
    obtain ⟨hw, hp', rfl⟩ := hq
    have htag := (hp' ▸ hw.sound.tidy).tag_eq
    rw [answer_tag, htag, ← hm]
    exact .of_tagged hs (hp.trans hp') (hi hw.inside)

end World

end BalancerSync
