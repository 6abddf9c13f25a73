import BalancerSync.Proofs.Calm

namespace BalancerSync

open Program Engine World

variable {fresh : Nat → Identifier} {l : Layout} {id : Identifier} {r : Resource} {kind : Kind}

namespace World

variable {w w' w'' : World}

/-- Others have done something. Objects of the load balancer have at most been looked at, and what the
program is about to tag has been left alone. -/
structure Aside (fresh : Nat → Identifier) (l : Layout) (w w' : World) : Prop
    extends Steady fresh l w w' where
  awaited : w.memory.Awaited l w'.memory
  mine : w.inside = true → w'.pending = w.pending ∧
    ∀ id, w.pending = some id → w'.inventory.objects.get? id = w.inventory.objects.get? id

namespace Aside

theorem refl (h : Sound fresh l w) : Aside fresh l w w :=
  ⟨.refl h, ⟨.refl _, fun _ _ _ _ => le_rfl⟩, fun _ => ⟨rfl, fun _ _ => rfl⟩⟩

theorem trans (h : Aside fresh l w w') (h' : Aside fresh l w' w'') : Aside fresh l w w'' := by
  refine ⟨h.toSteady.trans h'.toSteady, h.awaited.trans h'.awaited, fun hi => ?_⟩
  obtain ⟨hp, hget⟩ := h.mine hi
  obtain ⟨hp', hget'⟩ := h'.mine ((congrArg Stance.inside h.stance).trans hi)
  exact ⟨hp'.trans hp, fun id hid => (hget' id (hp.trans hid)).trans (hget id hid)⟩

theorem ripens (h : Aside fresh l w w') : Holding.Ripens (l.Owns w.memory) (l.Owns w'.memory) :=
  h.awaited.toMatured.ripens

end Aside

/-- Surroundings in which nothing fails and nothing is canceled, as far as a program depends on them
between its snapshots. -/
def gentle (fresh : Nat → Identifier) (l : Layout) : Environment World where
  rely := Aside fresh l
  allows q w :=
    match q with
    | .isCanceled | .draw | .latest | .remember _ => True
    | .call (.get _ id) => Resting fresh l w ∧ ∃ r, l.Owns w.memory id r
    | .call (.destroy kind id) => Resting fresh l w ∧ (∃ r, l.Owns w.memory id r ∧ r.kind = kind) ∧
      ∀ i p, w.inventory.objects.get? i = some p → id ∉ p.references
    | .call (.create r) => Inside fresh l w ∧ w.pending = none ∧ l.Wants (l.Owns w.memory) r
    | .call (.tag id tag) => Inside fresh l w ∧ w.pending = some id ∧ tag = l.service.tag
    | .exit => Inside fresh l w ∧ w.pending = none
    | .sleep _ | .enter => Resting fresh l w
    | _ => False
  replies q w reply w' :=
    match q, reply with
    | .enter, _ => w.pending = none ∧ w' = { w with inside := true }
    | q, reply => Acts fresh False q w reply w'

section

variable {α : Type} {post : Except Failure α → World → Prop}

theorem checkpoint_meets_gentle : checkpoint.Meets (gentle fresh l)
    (fun out w' => out = .ok () ∧ Aside fresh l w w') w := by
  refine fun w₁ ha => ⟨trivial, ?_⟩
  rintro reply w₂ ⟨hc, rfl⟩
  cases reply with
  | false => exact ⟨rfl, ha⟩
  | true => exact absurd rfl hc

theorem gentle_checkpoint {f : Unit → Program α}
    (h : ∀ w₁, Aside fresh l w w₁ → (f ()).Meets (gentle fresh l) post w₁) :
    (Program.checkpoint >>= f).Meets (gentle fresh l) post w := by
  refine checkpoint_meets_gentle.bind ?_ ?_
  · rintro - w₁ ⟨-, ha⟩
    exact h w₁ ha
  · rintro failure w₁ ⟨hf, -⟩
    cases hf

theorem gentle_call {c : Call} {f : c.Answer → Program α}
    (h : ∀ w₁, Aside fresh l w w₁ → (gentle fresh l).allows (.call c) w₁ ∧
      (f (w₁.answer fresh c).1).Meets (gentle fresh l) post (w₁.answer fresh c).2) :
    (Program.request (.call c) >>= f).Meets (gentle fresh l) post w := by
  refine fun w₁ ha => ⟨(h w₁ ha).1, fun reply w₂ hreply => ?_⟩
  have hreply₁ : reply = (w₁.answer fresh c).1 := congrArg Prod.fst hreply
  have hreply₂ : w₂ = (w₁.answer fresh c).2 := congrArg Prod.snd hreply
  rw [hreply₁, hreply₂]
  exact (h w₁ ha).2

theorem gentle_get {f : Except Refusal Resource → Program α} (hw : Resting fresh l w)
    (ho : ∃ r, l.Owns w.memory id r)
    (h : ∀ w₁ out, Aside fresh l w w₁ → w₁.memory.Got kind id out →
      (f out.1).Meets (gentle fresh l) post { w₁ with memory := out.2 }) :
    (Program.request (.call (.get kind id)) >>= f).Meets (gentle fresh l) post w := by
  refine gentle_call fun w₁ ha => ⟨⟨ha.resting hw, ?_⟩, h w₁ _ ha (w₁.memory.got kind id)⟩
  obtain ⟨r, hr⟩ := ho
  rcases ha.ripens.kept id r hr with hr | ⟨-, hr⟩
  · exact ⟨r, hr⟩
  · exact ⟨_, hr⟩

end

inductive Does (fresh : Nat → Identifier) (l : Layout) (w : World) : World → Prop
  | looked {kind : Kind} {id : Identifier} {out : Except Refusal Resource × Memory}
      (hgot : w.memory.Got kind id out)
      (hc : ∀ r, w.inventory.objects.get? id = some r → w.inventory.Carries l.service.tag id) :
      Does fresh l w { w with memory := out.2 }
  | created {r : Resource} (hw : Inside fresh l w) (hp : w.pending = none)
      (hr : l.Wants (l.Owns w.memory) r) : Does fresh l w { w with
        memory := w.memory.created fresh r
        pending := some (fresh (w.memory.issued + 1)) }
  | tagged {id : Identifier} (hw : Inside fresh l w) (hp : w.pending = some id) :
      Does fresh l w { w with
        memory := w.memory.tagged id l.service.tag
        pending := none }
  | destroyed {id : Identifier} {r : Resource} (hr : l.Owns w.memory id r)
      (href : ∀ i p, w.inventory.objects.get? i = some p → id ∉ p.references) :
      Does fresh l w { w with memory := w.memory.destroyed id }

theorem does_of_call {c : Call} (hq : (gentle fresh l).allows (.call c) w) :
    Does fresh l w (w.answer fresh c).2 := by
  cases c with
  | get kind id =>
    obtain ⟨-, r, hr⟩ := hq
    exact .looked (w.memory.got kind id) fun _ _ => hr.2.1
  | list tag => cases hq
  | create r =>
    obtain ⟨hw, hp, hr⟩ := hq
    rw [answer_create, hw.sound.tidy.create_eq (hr.resolves hw.sound.registered)]
    exact .created hw hp hr
  | destroy kind id =>
    obtain ⟨hw, ⟨r, hr, rfl⟩, href⟩ := hq
    rw [answer_destroy, hw.sound.tidy.destroy_eq hr.1 href]
    exact .destroyed hr href
  | tag id tag =>
    obtain ⟨hw, hp, rfl⟩ := hq
    have htag := (hp ▸ hw.sound.tidy).tag_eq
    rw [answer_tag, htag]
    exact .tagged hw hp

namespace Does

theorem sound (h : Does fresh l w w') (hs : Sound fresh l w) : Sound fresh l w' := by
  cases h with
  | looked hgot => exact hs.got hgot
  | created hw hp hr =>
    refine ⟨(hp ▸ hs.tidy).created hr hs.registered, hs.registered, fun hi => ?_⟩
    cases hw.inside.symm.trans hi
  | tagged hw hp => exact ⟨(hp ▸ hs.tidy).tagged, hs.registered, fun _ j q hj => nomatch hj⟩
  | destroyed hr href => exact hs.destroyed (hs.pending_ne hr.2.1) href

theorem stance (h : Does fresh l w w') : w'.toStance = w.toStance := by cases h <;> rfl

theorem steady (h : Does fresh l w w') (hs : Sound fresh l w) : Steady fresh l w w' :=
  ⟨h.stance, h.sound hs⟩

theorem listings (h : Does fresh l w w') :
    w'.memory.journal.listings = w.memory.journal.listings := by
  cases h with
  | looked hgot => exact hgot.listings
  | created | tagged | destroyed => rfl

/-- Whoever is not in the section neither makes nor finds an object to be tagged. -/
theorem pending (h : Does fresh l w w') (hi : w.inside = false) : w'.pending = w.pending := by
  cases h with
  | looked | destroyed => rfl
  | created hw | tagged hw => cases hw.inside.symm.trans hi

end Does

/-- Who enters or leaves the section for one program at a time finds nothing untagged there. -/
theorem Sound.turn (h : Sound fresh l w) (hp : w.pending = none) (inside : Bool) :
    Sound fresh l { w with inside } where
  tidy := h.tidy
  registered := h.registered
  elsewhere _ id r hid := by cases hp.symm.trans hid

section

variable {alone : Bool} {bound : Nat} {w w' : World}

theorem Beside.aside (h : Beside fresh l w w') : Aside fresh l w w' :=
  ⟨h.steady, h.awaited, h.mine⟩

theorem gentle_allows_of_calm {c : Call} (hq : (calm fresh l alone bound).allows (.call c) w) :
    (gentle fresh l).allows (.call c) w := by cases c <;> exact hq

theorem calm_allows_of_gentle {q : Request} (hq : (gentle fresh l).allows q w) :
    (calm fresh l alone bound).allows q w := by
  cases q with
  | call c => cases c <;> exact hq
  | watch | arrive | release | leave => cases hq
  | isCanceled | draw | latest | remember | enter | exit | sleep => exact hq

/-- What a program comes to in gentle surroundings it comes to in calm ones, without any listing. -/
theorem calm_of_gentle {α : Type} {post : Except Failure α → World → Prop} {p : Program α}
    (hw : Resting fresh l w) (h : p.Meets (gentle fresh l) post w) :
    p.Meets (calm fresh l alone bound) (fun out w' => post out w' ∧
      w'.memory.journal.listings = w.memory.journal.listings) w := by
  suffices hp : p.Meets (calm fresh l alone bound) (fun out w' => post out w' ∧
      (Sound fresh l w' ∧ w'.leading = none ∧ w'.left = false) ∧
        w'.memory.journal.listings = w.memory.journal.listings) w from
    hp.mono fun _ _ h => ⟨h.1, h.2.2⟩
  refine h.transfer (I := fun w' => (Sound fresh l w' ∧ w'.leading = none ∧ w'.left = false) ∧
    w'.memory.journal.listings = w.memory.journal.listings)
    ⟨⟨hw.sound, hw.notLeading, hw.here⟩, rfl⟩ ?_ ?_ ?_
  · rintro w₁ w₂ ⟨⟨hs, hlead, hl⟩, hlistings⟩ hrely
    have hb := beside_of_rely hrely hs hl
    exact ⟨hb.aside, ⟨hb.sound, (congrArg Stance.leading hb.stance).trans hlead,
      (congrArg Stance.left hb.stance).trans hl⟩, hb.listings.trans hlistings⟩
  · exact fun q w _ hq => calm_allows_of_gentle hq
  · rintro q w₁ reply w₂ ⟨⟨hs, hlead, hl⟩, hlistings⟩ hq hreply
    cases q with
    | call c =>
      obtain ⟨rfl, rfl⟩ := Prod.mk.inj hreply
      have hdoes := does_of_call hq
      exact ⟨rfl, ⟨hdoes.sound hs, (congrArg Stance.leading hdoes.stance).trans hlead,
        (congrArg Stance.left hdoes.stance).trans hl⟩, hdoes.listings.trans hlistings⟩
    | enter =>
      obtain ⟨hp, rfl⟩ := hreply
      exact ⟨⟨hp, rfl⟩, ⟨hs.turn hp true, hlead, hl⟩, hlistings⟩
    | exit =>
      obtain rfl := hreply
      exact ⟨rfl, ⟨hs.turn hq.2 false, hlead, hl⟩, hlistings⟩
    | remember latest =>
      obtain rfl := hreply
      exact ⟨rfl, ⟨hs.of_eq rfl rfl rfl, hlead, hl⟩, hlistings⟩
    | isCanceled | sleep | latest =>
      obtain ⟨hr, rfl⟩ := hreply
      exact ⟨⟨hr, rfl⟩, ⟨hs, hlead, hl⟩, hlistings⟩
    | draw =>
      obtain rfl := hreply
      exact ⟨rfl, ⟨hs, hlead, hl⟩, hlistings⟩
    | watch | arrive | release | leave => cases hq

end

end World

end BalancerSync
