import BalancerSync.Proofs.Crowd.Joint

namespace BalancerSync

open Program World

variable {fresh : Nat → Identifier} {ls : Crowd} {l l' : Layout} {s s' : Schedule Memory Unit}
  {t t' : Task Unit} {pending pending' : Option Identifier} {i j : Nat} {w w' : World}

theorem Tag.ofService_injective : Function.Injective Tag.ofService := fun _ _ h =>
  (String.append_right_inj _).1 (congrArg Tag.text h)

/-- No two reconciliations are for the same service on the same load balancer. -/
def Crowd.Distinct (ls : Crowd) : Prop :=
  ls.Pairwise fun l l' => l.service.uid ≠ l'.service.uid ∨ l.loadBalancer ≠ l'.loadBalancer

instance : Decidable ls.Distinct := inferInstanceAs (Decidable (List.Pairwise _ _))

namespace Crowd

theorem Distinct.loadBalancer_ne (h : ls.Distinct) (hij : j ≠ i) (hi : ls[i]? = some l)
    (hj : ls[j]? = some l') (ht : l.service.tag = l'.service.tag) :
    l.loadBalancer ≠ l'.loadBalancer := by
  have huid : l.service.uid = l'.service.uid := Tag.ofService_injective ht
  obtain ⟨hilt, rfl⟩ := List.getElem?_eq_some_iff.1 hi
  obtain ⟨hjlt, rfl⟩ := List.getElem?_eq_some_iff.1 hj
  rcases Nat.lt_or_gt_of_ne hij with hlt | hlt
  · exact ((List.pairwise_iff_getElem.1 h j i hjlt hilt hlt).resolve_left fun hne => hne huid.symm).symm
  · exact (List.pairwise_iff_getElem.1 h i j hilt hjlt hlt).resolve_left fun hne => hne huid

namespace Joint

variable {q : Request} {next : q.Reply → Program Unit}

/-- A member of a crowd does not own what another one owns. -/
theorem not_owns (h : Joint fresh ls pending s) (hls : ls.Distinct) (hij : j ≠ i)
    (hi : ls[i]? = some l) (hj : ls[j]? = some l') {id : Identifier} {r : Resource}
    (hr : l.Owns s.provider id r) (r' : Resource) : ¬ l'.Owns s.provider id r' := by
  intro hr'
  have ht : l.service.tag = l'.service.tag :=
    Inventory.apart_iff.1 h.apart id r hr.1 _ (List.mem_map_of_mem (List.mem_of_getElem? hi)) _
      (List.mem_map_of_mem (List.mem_of_getElem? hj)) hr.2.1 hr'.2.1
  cases hr.1.symm.trans hr'.1
  exact hls.loadBalancer_ne hij hi hj ht (Inventory.eq_of_belongsTo (ht ▸ hr.2.2) hr'.2.2)

/-- A reply that the provider has nothing to do with. -/
theorem quiet (h : Joint fresh ls pending s) (hi : ls[i]? = some l) (ht : s.tasks[i]? = some t)
    (hp : t.program = ask q next) (draws : List Binary64) (latest : Option Snapshot)
    (wake : Option Nat) (reply : q.Reply)
    (hreply : Schedule.handler (Memory.provider fresh) i q s =
      (some reply, { s with draws, tasks := s.tasks.set i { t with latest, wake } }))
    (hnext : (next reply).Meets (busy fresh l) (Reconciliation.Succeeded fresh l)
      { ls.seen s pending i l t with latest }) :
    Joint fresh ls pending (s.step (Memory.provider fresh) i) := by
  rw [Schedule.tasks_step_of_some ht hp hreply rfl]
  have hmember := h.member i l t hi ht
  exact h.next hi rfl rfl ⟨hmember.notCanceled, hmember.sound.of_eq rfl rfl rfl, hnext⟩
    (fun _ _ _ _ hj ht => h.rely_of_seen_eq hj ht rfl) (.inl rfl) h.nothing h.untagged h.apart

theorem idle {wake : Option Nat} (h : Joint fresh ls pending s) (hi : ls[i]? = some l)
    (ht : s.tasks[i]? = some t) :
    Joint fresh ls pending { s with tasks := s.tasks.set i { t with wake } } := by
  have hmember := h.member i l t hi ht
  exact h.next hi rfl rfl ⟨hmember.notCanceled, hmember.sound, hmember.meets⟩
    (fun _ _ _ _ hj ht => h.rely_of_seen_eq hj ht rfl) (.inl rfl) h.nothing h.untagged h.apart

theorem sleep {d : Duration} {next : Bool → Program Unit} (h : Joint fresh ls pending s)
    (hi : ls[i]? = some l) (ht : s.tasks[i]? = some t) (hp : t.program = ask (.sleep d) next)
    (hnext : (next false).Meets (busy fresh l) (Reconciliation.Succeeded fresh l)
      (ls.seen s pending i l t)) : Joint fresh ls pending (s.step (Memory.provider fresh) i) := by
  have hmember := h.member i l t hi ht
  cases hw : t.wake with
  | none =>
    rw [Schedule.tasks_step_of_none ht hp (Schedule.handler_sleep_of_none ht hw) rfl]
    exact h.idle hi ht
  | some wake =>
    by_cases hclock : wake ≤ s.clock
    · exact h.quiet hi ht hp s.draws t.latest none false
        (Schedule.handler_sleep_of_le ht hmember.notCanceled hw hclock) hnext
    · have hreply : Schedule.handler (Memory.provider fresh) i (.sleep d) s = (none, s) :=
        Schedule.handler_sleep_of_lt ht hmember.notCanceled hw (Nat.lt_of_not_le hclock)
      rw [Schedule.tasks_step_of_none ht hp hreply (Schedule.set_eq_self ht).symm]
      exact h.idle hi ht

/-- A program enters or leaves the section for one program at a time while everything is tagged. -/
theorem turn (inside : Option Nat) (reply : q.Reply) (h : Joint fresh ls none s)
    (hi : ls[i]? = some l) (ht : s.tasks[i]? = some t) (hp : t.program = ask q next)
    (hreply : Schedule.handler (Memory.provider fresh) i q s = (some reply, { s with inside }))
    (hbefore : s.inside = none ∨ s.inside = some i) (hafter : inside = none ∨ inside = some i)
    (hnext : (next reply).Meets (busy fresh l) (Reconciliation.Succeeded fresh l)
      { ls.seen s none i l t with inside := inside = some i }) :
    Joint fresh ls none (s.step (Memory.provider fresh) i) := by
  have hmember := h.member i l t hi ht
  have hseen (tasks : List (Task Unit)) (j : Nat) (l' : Layout) (t' : Task Unit) :
      ls.seen { s with inside, tasks } none j l' t' =
        { ls.seen s none j l' t' with inside := inside = some j } := by
    simp only [seen, loose_nothing]
  rw [Schedule.tasks_step_of_some ht hp hreply (Schedule.set_eq_self ht).symm]
  refine h.next hi rfl rfl ?_ ?_ (.inr hafter) (fun _ => rfl) h.untagged h.apart
  · refine ⟨hmember.notCanceled, ?_, ?_⟩
    · rw [hseen]
      exact (hmember.sound.turn loose_nothing _).of_eq rfl rfl rfl
    · rw [hseen]
      exact hnext
  · intro j l' t' hji hj ht'
    have hother {inside : Option Nat} (h : inside = none ∨ inside = some i) : inside ≠ some j := by
      rcases h with rfl | rfl
      · nofun
      · exact fun heq => hji (Option.some.inj heq).symm
    refine h.rely_of_seen_eq hj ht' ?_
    rw [hseen]
    simp only [seen, hother hbefore, hother hafter]

/-- A program enters the section for one program at a time, or waits. -/
theorem enter {next : Unit → Program Unit} (h : Joint fresh ls pending s) (hi : ls[i]? = some l)
    (ht : s.tasks[i]? = some t) (hp : t.program = ask .enter next)
    (hnext : pending = none → (next ()).Meets (busy fresh l) (Reconciliation.Succeeded fresh l)
      { ls.seen s pending i l t with inside := true }) :
    Joint fresh ls pending (s.step (Memory.provider fresh) i) := by
  cases hinside : s.inside with
  | some j =>
    have hreply : Schedule.handler (Memory.provider fresh) i .enter s = (none, s) := by
      rw [Schedule.handler, hinside]
    rw [Schedule.tasks_step_of_none ht hp hreply (Schedule.set_eq_self ht).symm]
    exact h.idle hi ht
  | none =>
    cases h.nothing hinside
    refine h.turn (some i) () hi ht hp ?_ (.inl hinside) (.inr rfl) ?_
    · rw [Schedule.handler, hinside]
    · rw [decide_eq_true (rfl : some i = some i)]
      exact hnext rfl

/-- A program leaves the section for one program at a time. -/
theorem exit {next : Unit → Program Unit} (h : Joint fresh ls none s) (hi : ls[i]? = some l)
    (ht : s.tasks[i]? = some t) (hp : t.program = ask .exit next) (hinside : s.inside = some i)
    (hnext : (next ()).Meets (busy fresh l) (Reconciliation.Succeeded fresh l)
      { ls.seen s none i l t with inside := false }) :
    Joint fresh ls none (s.step (Memory.provider fresh) i) :=
  h.turn none () hi ht hp rfl (.inr hinside) (.inl rfl) hnext

theorem answered {m : Memory} {reply : q.Reply} (h : Joint fresh ls pending s)
    (hi : ls[i]? = some l) (ht : s.tasks[i]? = some t) (hp : t.program = ask q next)
    (hreply : Schedule.handler (Memory.provider fresh) i q s =
      (some reply, { s with provider := m }))
    (hsound : Sound fresh l (ls.seen { s with provider := m } pending' i l t))
    (hnext : (next reply).Meets (busy fresh l) (Reconciliation.Succeeded fresh l)
      (ls.seen { s with provider := m } pending' i l t))
    (hothers : ∀ j l' t', j ≠ i → ls[j]? = some l' → s.tasks[j]? = some t' →
      (busy fresh l').rely (ls.seen s pending j l' t')
        (ls.seen { s with provider := m } pending' j l' t'))
    (hnothing : s.inside = none → pending' = none)
    (huntagged : ∀ id, pending' = some id → ∀ tag, ¬ m.inventory.Carries tag id)
    (hapart : m.inventory.Apart ls.tags) :
    Joint fresh ls pending' (s.step (Memory.provider fresh) i) := by
  rw [Schedule.tasks_step_of_some ht hp hreply (Schedule.set_eq_self ht).symm]
  exact h.next hi rfl rfl ⟨(h.member i l t hi ht).notCanceled, hsound, hnext⟩ hothers (.inl rfl)
    hnothing huntagged hapart

theorem listed {tag : Tag} {reply : q.Reply} (h : Joint fresh ls pending s) (hi : ls[i]? = some l)
    (ht : s.tasks[i]? = some t) (hp : t.program = ask q next)
    (hreply : Schedule.handler (Memory.provider fresh) i q s =
      (some reply, { s with provider := ((ls.seen s pending i l t).answer fresh (.list tag)).2.memory }))
    (hnext : (next reply).Meets (busy fresh l) (Reconciliation.Succeeded fresh l)
      ((ls.seen s pending i l t).answer fresh (.list tag)).2) :
    Joint fresh ls pending (s.step (Memory.provider fresh) i) := by
  rw [answer_list_snd] at hreply hnext
  have hsound := (Aside.of_listing (h.member i l t hi ht).sound).sound
  refine h.answered hi ht hp hreply hsound hnext ?_ h.nothing h.untagged h.apart
  intro j l' t' hji hj ht'
  exact ⟨.of_listing (h.member j l' t' hj ht').sound, fun _ => Memory.Claimed.listing⟩

/-- Those that bring the same service somewhere see what has not been tagged. -/
theorem seen_of_eq (hinside : s.inside = some i) (hi : ls[i]? = some l)
    (htag : l.service.tag = l'.service.tag) (m : Memory) :
    ls.seen { s with provider := m } pending' j l' t' =
      { ls.seen s pending j l' t' with memory := m, pending := pending' } := by
  simp only [seen, hinside, loose_of_eq hi htag]

theorem seen_of_ne (hinside : s.inside = some i) (hi : ls[i]? = some l)
    (htag : l.service.tag ≠ l'.service.tag) (m : Memory) :
    ls.seen { s with provider := m } pending' j l' t' =
      { ls.seen s pending j l' t' with memory := m } := by
  simp only [seen, hinside, loose_of_ne hi htag]

theorem seen_pending (hinside : s.inside = some i) (hi : ls[i]? = some l) :
    (ls.seen s pending i l t).pending = pending := by rw [seen, hinside, loose_of_eq hi rfl]

section

variable {reply : q.Reply} {id : Identifier} {r : Resource} {kind : Kind}

theorem looked {out : Except Refusal Resource × Memory} (h : Joint fresh ls pending s)
    (hi : ls[i]? = some l) (ht : s.tasks[i]? = some t) (hp : t.program = ask q next)
    (hreply : Schedule.handler (Memory.provider fresh) i q s =
      (some reply, { s with provider := out.2 }))
    (hgot : s.provider.Got kind id out)
    (hc : ∀ r, s.provider.inventory.objects.get? id = some r →
      s.provider.inventory.Carries l.service.tag id)
    (hnext : (next reply).Meets (busy fresh l) (Reconciliation.Succeeded fresh l)
      { ls.seen s pending i l t with memory := out.2 }) :
    Joint fresh ls pending (s.step (Memory.provider fresh) i) := by
  refine h.answered hi ht hp hreply ((h.member i l t hi ht).sound.got hgot) hnext ?_ h.nothing ?_
    (h.apart.resembles hgot.resembles)
  · intro j l' t' hji hj ht'
    have hs := (h.member j l' t' hj ht').sound
    refine ⟨.of_got hs hgot fun hid => ?_, fun _ => hgot.claimed⟩
    obtain ⟨⟨r, hr⟩, -, -⟩ := hs.tidy.loose id hid
    exact h.untagged id (pending_of_loose hid) _ (hc r hr)
  · exact fun j hj tag => mt hgot.resembles.carries_iff.1 (h.untagged j hj tag)

theorem destroyed (h : Joint fresh ls pending s) (hls : ls.Distinct) (hi : ls[i]? = some l)
    (ht : s.tasks[i]? = some t) (hp : t.program = ask q next)
    (hreply : Schedule.handler (Memory.provider fresh) i q s =
      (some reply, { s with provider := s.provider.destroyed id }))
    (hr : l.Owns s.provider id r)
    (href : ∀ i p, s.provider.inventory.objects.get? i = some p → id ∉ p.references)
    (hnext : (next reply).Meets (busy fresh l) (Reconciliation.Succeeded fresh l)
      { ls.seen s pending i l t with memory := s.provider.destroyed id }) :
    Joint fresh ls pending (s.step (Memory.provider fresh) i) := by
  have hs := (h.member i l t hi ht).sound
  refine h.answered hi ht hp hreply (hs.destroyed (hs.pending_ne hr.2.1) href) hnext ?_ h.nothing ?_
    h.apart.remove
  · intro j l' t' hji hj ht'
    have hb : Beside fresh l' (ls.seen s pending j l' t') _ :=
      .of_destroyed (h.member j l' t' hj ht').sound (h.not_owns hls hji hi hj hr)
        (fun hid => h.untagged id (pending_of_loose hid) _ hr.2.1) href
    exact ⟨hb.aside, fun _ => Memory.Claimed.destroyed⟩
  · exact fun j hj tag hc => h.untagged j hj tag (Inventory.carries_remove.1 hc).2

/-- An object has been created that those do not know who bring other services somewhere. -/
theorem created (h : Joint fresh ls none s) (hls : ls.Distinct) (hi : ls[i]? = some l)
    (ht : s.tasks[i]? = some t) (hp : t.program = ask q next)
    (hreply : Schedule.handler (Memory.provider fresh) i q s =
      (some reply, { s with provider := s.provider.created fresh r }))
    (hw : Inside fresh l (ls.seen s none i l t)) (hr : l.Wants (l.Owns s.provider) r)
    (hnext : (next reply).Meets (busy fresh l) (Reconciliation.Succeeded fresh l)
      { ls.seen s none i l t with
        memory := s.provider.created fresh r
        pending := some (fresh (s.provider.issued + 1)) }) :
    Joint fresh ls (some (fresh (s.provider.issued + 1))) (s.step (Memory.provider fresh) i) := by
  have hinside : s.inside = some i := of_decide_eq_true hw.inside
  have hnew (tag : Tag) : ¬ s.provider.inventory.Carries tag (fresh (s.provider.issued + 1)) :=
    hw.sound.tidy.not_carries tag
  refine h.answered hi ht hp hreply ?_ ?_ ?_ ?_ ?_ (h.apart.put hnew)
  · rw [seen_of_eq hinside hi rfl]
    exact (Does.created hw loose_nothing hr).sound hw.sound
  · rw [seen_of_eq hinside hi rfl]
    exact hnext
  · intro j l' t' hji hj ht'
    have hs := (h.member j l' t' hj ht').sound
    refine ⟨?_, fun _ => Memory.Claimed.created⟩
    by_cases htag : l.service.tag = l'.service.tag
    · have hout : decide (s.inside = some j) = false :=
        decide_eq_false fun heq => hji (Option.some.inj (heq.symm.trans hinside))
      rw [seen_of_eq hinside hi htag (s.provider.created fresh r)]
      exact (Beside.of_created htag (hls.loadBalancer_ne hji hi hj htag) hs hw.sound.registered
        loose_nothing hout hr).aside
    · rw [seen_of_ne hinside hi htag (s.provider.created fresh r)]
      refine .of_created_of_ne hs hw.sound.registered loose_nothing hr fun id q hq hc => htag ?_
      exact Inventory.apart_iff.1 h.apart id q hq.1 _
        (List.mem_map_of_mem (List.mem_of_getElem? hi)) _
        (List.mem_map_of_mem (List.mem_of_getElem? hj)) hq.2.1 hc
  · exact fun heq => by cases hinside.symm.trans heq
  · rintro id hid tag hc
    cases hid
    exact hnew tag (Inventory.carries_put.1 hc)

theorem tagged (h : Joint fresh ls (some id) s) (hi : ls[i]? = some l) (ht : s.tasks[i]? = some t)
    (hp : t.program = ask q next)
    (hreply : Schedule.handler (Memory.provider fresh) i q s =
      (some reply, { s with provider := s.provider.tagged id l.service.tag }))
    (hw : Inside fresh l (ls.seen s (some id) i l t))
    (hnext : (next reply).Meets (busy fresh l) (Reconciliation.Succeeded fresh l)
      { ls.seen s (some id) i l t with
        memory := s.provider.tagged id l.service.tag
        pending := none }) :
    Joint fresh ls none (s.step (Memory.provider fresh) i) := by
  have hinside : s.inside = some i := of_decide_eq_true hw.inside
  have hsome : (ls.seen s (some id) i l t).pending = some id := seen_pending hinside hi
  obtain ⟨⟨r, hr⟩, -, -⟩ := hw.sound.tidy.loose id hsome
  refine h.answered hi ht hp hreply ?_ ?_ ?_ (fun _ => rfl) nofun (h.apart.attach (h.untagged id rfl))
  · rw [seen_of_eq hinside hi rfl]
    exact (Does.tagged hw hsome).sound hw.sound
  · rw [seen_of_eq hinside hi rfl]
    exact hnext
  · intro j l' t' hji hj ht'
    have hs := (h.member j l' t' hj ht').sound
    refine ⟨?_, fun _ => Memory.Claimed.tagged⟩
    by_cases htag : l.service.tag = l'.service.tag
    · have hout : decide (s.inside = some j) = false :=
        decide_eq_false fun heq => hji (Option.some.inj (heq.symm.trans hinside))
      rw [seen_of_eq hinside hi htag (s.provider.tagged id l.service.tag), htag]
      refine (Beside.of_tagged hs ?_ hout).aside
      rw [seen, hinside, loose_of_eq hi htag]
    · rw [seen_of_ne hinside hi htag (s.provider.tagged id l.service.tag)]
      exact .of_tagged_of_ne hs htag hr

end

/-- Whatever a call does, it is none of the business of the others. -/
theorem does {reply : q.Reply} (h : Joint fresh ls pending s) (hls : ls.Distinct)
    (hi : ls[i]? = some l) (ht : s.tasks[i]? = some t) (hp : t.program = ask q next)
    (hreply : Schedule.handler (Memory.provider fresh) i q s =
      (some reply, { s with provider := w'.memory }))
    (hd : Does fresh l (ls.seen s pending i l t) w')
    (hnext : (next reply).Meets (busy fresh l) (Reconciliation.Succeeded fresh l) w') :
    ∃ pending', Joint fresh ls pending' (s.step (Memory.provider fresh) i) := by
  cases hd with
  | looked hgot hc => exact ⟨_, h.looked hi ht hp hreply hgot hc hnext⟩
  | destroyed hr href => exact ⟨_, h.destroyed hls hi ht hp hreply hr href hnext⟩
  | created hw hnone hr =>
    obtain rfl : pending = none := (seen_pending (of_decide_eq_true hw.inside) hi).symm.trans hnone
    exact ⟨_, h.created hls hi ht hp hreply hw hr hnext⟩
  | tagged hw hsome =>
    obtain rfl : pending = some _ := (seen_pending (of_decide_eq_true hw.inside) hi).symm.trans hsome
    exact ⟨_, h.tagged hi ht hp hreply hw hnext⟩

theorem handler_watch (h : Joint fresh ls pending s) (hi : ls[i]? = some l)
    (ht : s.tasks[i]? = some t) (c : Call) :
    Schedule.handler (Memory.provider fresh) i (.watch c) s =
      (some (some ((ls.seen s pending i l t).answer fresh c).1),
        { s with provider := ((ls.seen s pending i l t).answer fresh c).2.memory }) := by
  have hholds : s.holds c = false := by
    cases c <;> first | exact h.notHeld | rfl
  rw [Schedule.handler, Schedule.isCanceled_eq ht, (h.member i l t hi ht).notCanceled, hholds]
  rfl

theorem ask (h : Joint fresh ls pending s) (hls : ls.Distinct) (hi : ls[i]? = some l)
    (ht : s.tasks[i]? = some t) (hp : t.program = ask q next) :
    ∃ pending', Joint fresh ls pending' (s.step (Memory.provider fresh) i) := by
  have hmember := h.member i l t hi ht
  have hmeets := hmember.meets
  rw [hp] at hmeets
  obtain ⟨hq, hnext⟩ := hmeets _ (busy_rely_refl hmember.sound)
  have hfalse {b : Bool} (hb : b = false) : b = true → False := fun h => by cases hb.symm.trans h
  cases q with
  | call c => exact h.does hls hi ht hp rfl (does_of_call hq) (hnext _ _ rfl)
  | watch c =>
    have hreply := h.handler_watch hi ht c
    have hnext := hnext _ _ (.inr ⟨_, rfl, rfl⟩)
    cases c with
    | get kind id => exact h.does hls hi ht hp hreply (does_of_look hq) hnext
    | list tag => exact ⟨pending, h.listed hi ht hp hreply hnext⟩
    | create r | destroy kind id | tag id tag => exact hq.elim
  | isCanceled =>
    refine ⟨pending, h.quiet hi ht hp s.draws t.latest t.wake false ?_
      (hnext false _ ⟨hfalse rfl, rfl⟩)⟩
    rw [Schedule.handler, Schedule.set_eq_self ht, Schedule.isCanceled_eq ht, hmember.notCanceled]
  | sleep d => exact ⟨pending, h.sleep hi ht hp (hnext false _ ⟨hfalse rfl, rfl⟩)⟩
  | draw =>
    refine ⟨pending, h.quiet hi ht hp s.draws.tail t.latest t.wake _ ?_
      (hnext (s.draws.headD (1 / 2)) _ rfl)⟩
    rw [Schedule.handler, Schedule.set_eq_self ht]
  | latest =>
    refine ⟨pending, h.quiet hi ht hp s.draws t.latest t.wake t.latest ?_ (hnext _ _ ⟨rfl, rfl⟩)⟩
    rw [Schedule.handler, ht, Schedule.set_eq_self ht]
    rfl
  | remember latest =>
    refine ⟨pending, h.quiet hi ht hp s.draws latest t.wake () ?_ (hnext _ _ rfl)⟩
    rw [Schedule.handler, Schedule.modifyTask, Schedule.modify_eq_set ht]
  | enter =>
    refine ⟨pending, h.enter hi ht hp fun hpending => hnext _ _ ⟨?_, rfl⟩⟩
    rw [hpending]
    exact loose_nothing
  | exit =>
    have hinside : s.inside = some i := of_decide_eq_true hq.1.inside
    obtain rfl : pending = none := by
      have hnone := hq.2
      rwa [seen, hinside, loose_of_eq hi rfl] at hnone
    exact ⟨none, h.exit hi ht hp hinside (hnext _ _ rfl)⟩
  | arrive lb => exact hq.elim
  | release outcome => exact hq.elim
  | leave lb => exact hq.elim

/-- What is known about a crowd is kept by every step. -/
theorem step (h : Joint fresh ls pending s) (hls : ls.Distinct) (i : Nat) :
    ∃ pending', Joint fresh ls pending' (s.step (Memory.provider fresh) i) := by
  cases ht : s.tasks[i]? with
  | none =>
    rw [Schedule.step, ht]
    exact ⟨pending, h⟩
  | some t =>
    have hlt : i < ls.length := h.length ▸ (List.getElem?_eq_some_iff.1 ht).1
    cases hp : t.program with
    | ask q next => exact h.ask hls (List.getElem?_eq_getElem hlt) ht hp
    | done a =>
      rw [Schedule.step_of_done ht hp]
      exact ⟨pending, h⟩
    | fail failure =>
      rw [Schedule.step_of_fail ht hp]
      exact ⟨pending, h⟩

/-- What is known about a crowd is kept by every history in which nothing is canceled. -/
theorem play (h : Joint fresh ls pending s) (hls : ls.Distinct) (moves : List Schedule.Move)
    (hc : ∀ i, .cancel i ∉ moves) :
    ∃ pending', Joint fresh ls pending' (s.play (Memory.provider fresh) moves) := by
  induction moves generalizing s pending with
  | nil => exact ⟨pending, h⟩
  | cons move moves ih =>
    have hc' (i : Nat) : .cancel i ∉ moves := fun hi => hc i (List.mem_cons_of_mem _ hi)
    cases move with
    | step i =>
      obtain ⟨pending', h'⟩ := h.step hls i
      exact ih h' hc'
    | cancel i => exact absurd List.mem_cons_self (hc i)
    | elapse milliseconds =>
      exact ih ⟨h.notHeld, h.length, h.member, h.inside, h.nothing, h.untagged, h.apart⟩ hc'

end Joint

end Crowd

end BalancerSync
