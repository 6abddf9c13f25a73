import BalancerSync.Engine.Fetch
import BalancerSync.Proofs.Looks

namespace BalancerSync

variable {σ : Type}

namespace Snapshot

variable {s : Snapshot} {lb lb' : Identifier} {r q : Resource} {rs : List Resource}

def ofKind (s : Snapshot) : Kind → List Resource
  | .backend => s.backends.map .backend
  | .frontend => s.frontends.map .frontend
  | .bind => s.binds.map .bind
  | .server => s.servers.map .server

/-- The snapshot tells each resource once, in the list of its kind and in the order in which it was
found, and once more if it is not ready. -/
structure Sorts (s : Snapshot) (found : List Resource) : Prop where
  ofKind : ∀ kind, s.ofKind kind = found.filter fun r => r.kind = kind
  perm : s.resources.Perm found
  failed : s.failed = found.filter fun r => r.readiness = .failed
  progressing : s.progressing = found.filter fun r => r.readiness = .progressing

theorem sorts_ofList (rs : List Resource) : (ofList rs).Sorts rs where
  ofKind kind := by
    rw [← List.filterMap_eq_filter]
    cases kind <;> simp only [Snapshot.ofKind, ofList, List.map_filterMap] <;>
      congr 1 <;> funext r <;> cases r <;> rfl
  perm := resources_ofList_perm rs
  failed := rfl
  progressing := rfl

def Dangling (s : Snapshot) : Resource → Prop
  | .backend _ | .frontend _ => False
  | .bind b => ∀ f ∈ s.frontends, f.identifier ≠ some b.frontend
  | .server v => ∀ b ∈ s.backends, b.identifier ≠ some v.backend

/-- What the parts for the load balancers have to do with the whole. -/
structure Partitioned (s : Snapshot) : Prop where
  failed : ∀ lb, (s.narrowTo lb).failed.Perm
    ((s.narrowTo lb).resources.filter fun r => r.readiness = .failed)
  progressing : ∀ lb, (s.narrowTo lb).progressing.Perm
    ((s.narrowTo lb).resources.filter fun r => r.readiness = .progressing)
  idempotent : ∀ lb, (s.narrowTo lb).narrowTo lb = s.narrowTo lb
  sublist : ∀ lb, (s.narrowTo lb).resources.Sublist s.resources
  disjoint : ∀ lb lb', lb ≠ lb' →
    (s.narrowTo lb).resources.Disjoint (s.narrowTo lb').resources
  covers : ∀ r ∈ s.resources, ¬ s.Dangling r → ∃! lb, r ∈ (s.narrowTo lb).resources
  dangling : ∀ r ∈ s.resources, s.Dangling r → ∀ lb, r ∉ (s.narrowTo lb).resources

theorem resources_narrowTo (s : Snapshot) (lb : Identifier) :
    (s.narrowTo lb).resources = s.resources.filter (s.belongsTo lb) := by
  simp only [resources, narrowTo, List.filter_append, List.filter_map, Function.comp_def]

theorem mem_narrowTo_iff :
    r ∈ (s.narrowTo lb).resources ↔ r ∈ s.resources ∧ s.belongsTo lb r = true := by
  rw [resources_narrowTo, List.mem_filter]

theorem mem_frontendIds_iff {id : Identifier} : id ∈ s.frontendIds lb ↔
    ∃ f ∈ s.frontends, f.loadBalancer = lb ∧ f.identifier = some id := by
  simp [frontendIds, and_assoc]

theorem mem_backendIds_iff {id : Identifier} : id ∈ s.backendIds lb ↔
    ∃ b ∈ s.backends, b.loadBalancer = lb ∧ b.identifier = some id := by
  simp [backendIds, and_assoc]

/-- A part is asked for by the same resources as the whole. -/
theorem belongsTo_narrowTo (s : Snapshot) (lb : Identifier) :
    (s.narrowTo lb).belongsTo lb = s.belongsTo lb := by
  have hfrontends : (s.narrowTo lb).frontendIds lb = s.frontendIds lb := by
    simp [frontendIds, narrowTo, belongsTo, List.filter_filter]
  have hbackends : (s.narrowTo lb).backendIds lb = s.backendIds lb := by
    simp [backendIds, narrowTo, belongsTo, List.filter_filter]
  funext r
  cases r <;> simp only [belongsTo, hfrontends, hbackends]

theorem narrowTo_narrowTo (s : Snapshot) (lb : Identifier) :
    (s.narrowTo lb).narrowTo lb = s.narrowTo lb := by
  have hbelongs := s.belongsTo_narrowTo lb
  generalize hpart : s.narrowTo lb = part at hbelongs ⊢
  rw [narrowTo, hbelongs, ← hpart]
  simp only [narrowTo, List.filter_filter, Bool.and_self]

theorem narrowTo_ofList (rs : List Resource) (lb : Identifier) :
    (ofList rs).narrowTo lb = ofList (rs.filter ((ofList rs).belongsTo lb)) :=
  (ofList_filter _ _).symm

theorem loadBalancer_unique (h : (identifiers s.resources).Nodup)
    (hr : s.belongsTo lb r = true) (hr' : s.belongsTo lb' r = true) : lb = lb' := by
  cases r with
  | backend b | frontend f => exact (of_decide_eq_true hr).symm.trans (of_decide_eq_true hr')
  | bind b =>
    obtain ⟨f, hf, hlb, hid⟩ := mem_frontendIds_iff.1 (of_decide_eq_true hr)
    obtain ⟨f', hf', hlb', hid'⟩ := mem_frontendIds_iff.1 (of_decide_eq_true hr')
    have hff := eq_of_identifiers_nodup h (frontend_mem_resources.2 hf)
      (frontend_mem_resources.2 hf') hid hid'
    cases hff
    exact hlb.symm.trans hlb'
  | server v =>
    obtain ⟨b, hb, hlb, hid⟩ := mem_backendIds_iff.1 (of_decide_eq_true hr)
    obtain ⟨b', hb', hlb', hid'⟩ := mem_backendIds_iff.1 (of_decide_eq_true hr')
    have hbb := eq_of_identifiers_nodup h (backend_mem_resources.2 hb)
      (backend_mem_resources.2 hb') hid hid'
    cases hbb
    exact hlb.symm.trans hlb'

theorem exists_belongsTo_iff : (∃ lb, s.belongsTo lb r = true) ↔ ¬ s.Dangling r := by
  cases r with
  | backend b => simp [belongsTo, Dangling]
  | frontend f => simp [belongsTo, Dangling]
  | bind b =>
    simp only [belongsTo, Dangling, decide_eq_true_eq, mem_frontendIds_iff]
    push Not
    constructor
    · rintro ⟨lb, f, hf, -, hid⟩
      exact ⟨f, hf, hid⟩
    · rintro ⟨f, hf, hid⟩
      exact ⟨f.loadBalancer, f, hf, rfl, hid⟩
  | server v =>
    simp only [belongsTo, Dangling, decide_eq_true_eq, mem_backendIds_iff]
    push Not
    constructor
    · rintro ⟨lb, b, hb, -, hid⟩
      exact ⟨b, hb, hid⟩
    · rintro ⟨b, hb, hid⟩
      exact ⟨b.loadBalancer, b, hb, rfl, hid⟩

theorem partitioned_ofList (hn : (identifiers (ofList rs).resources).Nodup) :
    (ofList rs).Partitioned where
  failed lb := by
    rw [narrowTo_ofList]
    exact ((resources_ofList_perm _).filter _).symm
  progressing lb := by
    rw [narrowTo_ofList]
    exact ((resources_ofList_perm _).filter _).symm
  idempotent lb := (ofList rs).narrowTo_narrowTo lb
  sublist lb := by
    rw [resources_narrowTo]
    exact List.filter_sublist
  disjoint lb lb' hne r hr hr' :=
    hne (loadBalancer_unique hn (mem_narrowTo_iff.1 hr).2 (mem_narrowTo_iff.1 hr').2)
  covers r hr hd := by
    obtain ⟨lb, hlb⟩ := exists_belongsTo_iff.2 hd
    refine ⟨lb, mem_narrowTo_iff.2 ⟨hr, hlb⟩, ?_⟩
    intro lb' hr'
    exact loadBalancer_unique hn (mem_narrowTo_iff.1 hr').2 hlb
  dangling r _ hd lb hr := exists_belongsTo_iff.1 ⟨lb, (mem_narrowTo_iff.1 hr).2⟩ hd

end Snapshot

/-- What is known of a listing, in order. -/
def known (listed : List Listed) : List Target :=
  listed.filterMap fun e => (Kind.ofTypeIdentifier? e.typeIdentifier).map (·, e.identifier)

theorem known_cons (e : Listed) (listed : List Listed) : known (e :: listed) =
    ((Kind.ofTypeIdentifier? e.typeIdentifier).map (·, e.identifier)).toList ++ known listed := by
  rw [known, List.filterMap_cons]
  cases Kind.ofTypeIdentifier? e.typeIdentifier <;> rfl

/-- The answers to looks, if they do not depend on the order of the calls. -/
abbrev Answers := Kind → Identifier → Except Refusal Resource

/-- Each look is answered alike, whichever of the others came before it. -/
def Provider.Steady (p : Provider σ) (s : σ) (asked : List Target) (look : Answers) : Prop :=
  ∀ seen kind id, ((kind, id) :: seen).Subperm asked →
    (p.answer (.get kind id) (p.after s (seen.map fun e => .get e.1 e.2))).1 = look kind id

theorem Provider.Steady.answer_eq {p : Provider σ} {s s' : σ} {asked : List Target}
    {look : Answers} {looks : List Look} (h : p.Steady s asked look) (seen : List Target)
    (hshows : p.Shows (p.after s (seen.map fun e => .get e.1 e.2)) (looks.map .saw) s')
    (hasked : (seen ++ looks.map Look.target).Subperm asked) :
    ∀ l ∈ looks, l.answer = look l.kind l.id := by
  induction looks generalizing seen with
  | nil => nofun
  | cons l looks ih =>
    obtain ⟨hanswer, hrest⟩ := hshows
    rw [List.map_cons, List.append_cons] at hasked
    have hafter : p.after s ((seen ++ [l.target]).map fun e => .get e.1 e.2) =
        (p.answer (.get l.kind l.id) (p.after s (seen.map fun e => .get e.1 e.2))).2 := by
      rw [List.map_append, Provider.after_append]
      rfl
    have hfirst : (l.target :: seen).Subperm asked :=
      ((List.perm_append_singleton l.target seen).symm.subperm.trans
        (List.sublist_append_left _ _).subperm).trans hasked
    intro l' hl'
    rcases List.mem_cons.1 hl' with rfl | hl'
    · exact hanswer.symm.trans (h seen _ _ hfirst)
    · rw [← hafter] at hrest
      exact ih _ hrest hasked l' hl'

namespace Answers

variable {look : Answers} {entries before after : List Target} {e : Target} {refusal : Refusal}

/-- The objects that are there. -/
def found (look : Answers) (entries : List Target) : List Resource :=
  entries.filterMap fun e => (look e.1 e.2).toOption

/-- The look fails, and not because the object is gone. -/
def Refuses (look : Answers) (e : Target) (refusal : Refusal) : Prop :=
  look e.1 e.2 = .error refusal ∧ refusal ≠ .notFound

theorem found_cons_ok {r : Resource} (h : look e.1 e.2 = .ok r) :
    look.found (e :: entries) = r :: look.found entries := by simp [found, h, Except.toOption]

theorem found_cons_error (h : look e.1 e.2 = .error refusal) :
    look.found (e :: entries) = look.found entries := by simp [found, h, Except.toOption]

end Answers

namespace Engine

open Program

inductive Gathered : List Target → List Look → Except Failure (List Resource) → Prop
  | nil : Gathered [] [] (.ok [])
  | found {entries : List Target} {looks : List Look} {out : Except Failure (List Resource)}
      {l : Look} {r : Resource} (ha : l.answer = .ok r) (h : Gathered entries looks out) :
      Gathered (l.target :: entries) (l :: looks) (out.map (r :: ·))
  | gone {entries : List Target} {looks : List Look} {out : Except Failure (List Resource)}
      {l : Look} (ha : l.answer = .error .notFound) (h : Gathered entries looks out) :
      Gathered (l.target :: entries) (l :: looks) out
  | refused {entries : List Target} {l : Look} {refusal : Refusal} (ha : l.answer = .error refusal)
      (hne : refusal ≠ .notFound) :
      Gathered (l.target :: entries) [l] (.error (.provider refusal))

namespace Gathered

variable {entries before after : List Target} {looks : List Look}
  {out : Except Failure (List Resource)} {look : Answers} {e : Target} {refusal : Refusal}

theorem map_target_prefix (h : Gathered entries looks out) : looks.map Look.target <+: entries := by
  induction h with
  | nil => exact List.prefix_rfl
  | found _ _ ih | gone _ _ ih => exact (List.prefix_cons_inj _).2 ih
  | refused _ _ => exact ⟨_, rfl⟩

/-- Unless a look is refused, all that is there is found. -/
theorem eq_ok (h : Gathered entries looks out) (hlook : ∀ l ∈ looks, l.answer = look l.kind l.id)
    (hfree : ∀ e ∈ entries, ∀ refusal, ¬ look.Refuses e refusal) :
    out = .ok (look.found entries) := by
  induction h with
  | nil => rfl
  | @found _ _ _ l r ha _ ih =>
    have hl : look l.kind l.id = .ok r := (hlook l List.mem_cons_self).symm.trans ha
    rw [ih (fun l hl => hlook l (List.mem_cons_of_mem _ hl))
      fun e he => hfree e (List.mem_cons_of_mem _ he), Answers.found_cons_ok (e := l.target) hl]
    rfl
  | @gone _ _ _ l ha _ ih =>
    have hl : look l.kind l.id = .error .notFound := (hlook l List.mem_cons_self).symm.trans ha
    rw [ih (fun l hl => hlook l (List.mem_cons_of_mem _ hl))
      fun e he => hfree e (List.mem_cons_of_mem _ he), Answers.found_cons_error (e := l.target) hl]
  | @refused _ l refusal ha hne =>
    have hl : look l.kind l.id = .error refusal := (hlook l List.mem_cons_self).symm.trans ha
    exact absurd ⟨hl, hne⟩ (hfree l.target List.mem_cons_self refusal)

/-- The first look that is refused is what is told. -/
theorem eq_error (h : Gathered entries looks out)
    (hlook : ∀ l ∈ looks, l.answer = look l.kind l.id) (hentries : entries = before ++ e :: after)
    (hfree : ∀ e ∈ before, ∀ refusal, ¬ look.Refuses e refusal) (hrefused : look.Refuses e refusal) :
    out = .error (.provider refusal) := by
  induction h generalizing before with
  | nil => simp at hentries
  | @found _ _ _ l r ha _ ih =>
    have hl : look l.kind l.id = .ok r := (hlook l List.mem_cons_self).symm.trans ha
    cases before with
    | nil =>
      cases hentries
      cases hl.symm.trans hrefused.1
    | cons b before =>
      rw [ih (fun l hl => hlook l (List.mem_cons_of_mem _ hl)) (List.cons.inj hentries).2
        fun e he => hfree e (List.mem_cons_of_mem _ he)]
      rfl
  | @gone _ _ _ l ha _ ih =>
    have hl : look l.kind l.id = .error .notFound := (hlook l List.mem_cons_self).symm.trans ha
    cases before with
    | nil =>
      cases hentries
      exact absurd (Except.error.inj (hrefused.1.symm.trans hl)) hrefused.2
    | cons b before =>
      exact ih (fun l hl => hlook l (List.mem_cons_of_mem _ hl)) (List.cons.inj hentries).2
        fun e he => hfree e (List.mem_cons_of_mem _ he)
  | @refused _ l refusal' ha hne =>
    have hl : look l.kind l.id = .error refusal' := (hlook l List.mem_cons_self).symm.trans ha
    cases before with
    | nil =>
      cases hentries
      cases hl.symm.trans hrefused.1
      rfl
    | cons b before =>
      cases (List.cons.inj hentries).1
      exact absurd ⟨hl, hne⟩ (hfree l.target List.mem_cons_self refusal')

end Gathered

theorem fetchListed_meets_showing (listed : List Listed) (moments : List Moment) :
    (fetchListed listed).Meets showing (fun out moments' => ∃ looks,
      moments' = moments ++ looks.map .saw ∧ Gathered (known listed) looks out) moments := by
  induction listed generalizing moments with
  | nil => exact ⟨[], (List.append_nil _).symm, .nil⟩
  | cons e listed ih =>
    rw [fetchListed, known_cons]
    cases Kind.ofTypeIdentifier? e.typeIdentifier with
    | none => exact ih moments
    | some kind =>
      apply showing_watch
      intro answer
      have hrest := ih (moments ++ [.saw ⟨kind, e.identifier, answer⟩])
      cases answer with
      | ok r =>
        apply hrest.bind
        · rintro rs _ ⟨looks, rfl, h⟩
          exact ⟨_ :: looks, List.append_assoc _ _ _, .found (l := ⟨kind, e.identifier, .ok r⟩) rfl h⟩
        · rintro failure _ ⟨looks, rfl, h⟩
          exact ⟨_ :: looks, List.append_assoc _ _ _, .found (l := ⟨kind, e.identifier, .ok r⟩) rfl h⟩
      | error refusal =>
        by_cases hgone : refusal = .notFound
        · subst hgone
          apply hrest.mono
          rintro out _ ⟨looks, rfl, h⟩
          exact ⟨_ :: looks, List.append_assoc _ _ _, .gone (l := ⟨kind, e.identifier, _⟩) rfl h⟩
        · have hends : ∃ looks, moments ++ [.saw ⟨kind, e.identifier, .error refusal⟩] =
              moments ++ looks.map .saw ∧
              Gathered ((kind, e.identifier) :: known listed) looks (.error (.provider refusal)) :=
            ⟨[_], rfl, .refused (l := ⟨kind, e.identifier, .error refusal⟩) rfl hgone⟩
          cases refusal with
          | notFound => exact absurd rfl hgone
          | _ => exact hends

def afterListing : Except Refusal (List Listed) → Program Snapshot
  | .error (.unprocessable _) => done .empty
  | .error refusal => fail (.provider refusal)
  | .ok listed => do return .ofList (← fetchListed listed)

theorem run_fetch {k : Conditions σ} {s : Surroundings σ} {tag : Tag} (hs : s.Uncanceled k) :
    (fetch tag).run (Surroundings.handler k) s =
      (afterListing (s.answer k (.list tag)).1).run (Surroundings.handler k)
        (s.answer k (.list tag)).2 := by
  have hcheck : Surroundings.handler k .isCanceled s = (some false, s) := by
    rw [Surroundings.handler, hs.notCanceled]
  have hlist : Surroundings.handler k (.watch (.list tag)) s =
      (some (some (s.answer k (.list tag)).1), (s.answer k (.list tag)).2) := rfl
  rw [fetch, checkpoint, request, ask_bind, ask_bind, run_ask hcheck]
  refine (run_ask hlist).trans ?_
  cases (s.answer k (.list tag)).1 with
  | ok listed => rfl
  | error refusal => cases refusal <;> rfl

/-- A listing comes to some entries, or cannot be processed and comes to none. -/
def Lists (answer : Except Refusal (List Listed)) (listed : List Listed) : Prop :=
  answer = .ok listed ∨ (∃ message, answer = .error (.unprocessable message)) ∧ listed = []

theorem Lists.unique {answer : Except Refusal (List Listed)} {listed listed' : List Listed}
    (h : Lists answer listed) (h' : Lists answer listed') : listed = listed' := by
  rcases h with rfl | ⟨⟨_, rfl⟩, rfl⟩ <;> rcases h' with h' | ⟨⟨_, h'⟩, rfl⟩ <;> cases h' <;> rfl

theorem exists_lists_or_refused (answer : Except Refusal (List Listed)) :
    (∃ listed, Lists answer listed) ∨
      ∃ refusal, answer = .error refusal ∧ ∀ message, refusal ≠ .unprocessable message := by
  cases answer with
  | ok listed => exact .inl ⟨listed, .inl rfl⟩
  | error refusal =>
    cases refusal with
    | unprocessable message => exact .inl ⟨[], .inr ⟨⟨message, rfl⟩, rfl⟩⟩
    | _ => exact .inr ⟨_, rfl, nofun⟩

theorem afterListing_eq_fail {refusal : Refusal} (h : ∀ message, refusal ≠ .unprocessable message) :
    afterListing (.error refusal) = fail (.provider refusal) := by
  cases refusal with
  | unprocessable message => exact absurd rfl (h message)
  | _ => rfl

theorem afterListing_meets_showing {answer : Except Refusal (List Listed)} {listed : List Listed}
    (h : Lists answer listed) : (afterListing answer).Meets showing (fun out moments =>
      ∃ looks rs, moments = looks.map .saw ∧ Gathered (known listed) looks rs ∧
        out = rs.map .ofList) [] := by
  rcases h with rfl | ⟨⟨message, rfl⟩, rfl⟩
  · apply (fetchListed_meets_showing listed []).bind
    · rintro rs _ ⟨looks, rfl, h⟩
      exact ⟨looks, _, rfl, h, rfl⟩
    · rintro failure _ ⟨looks, rfl, h⟩
      exact ⟨looks, _, rfl, h, rfl⟩
  · exact ⟨[], _, rfl, .nil, rfl⟩

/-- What a fetch that is not canceled comes to when it has been listed what there is. -/
theorem exists_gathered {k : Conditions σ} {s : Surroundings σ} {tag : Tag} {listed : List Listed}
    (hs : s.Uncanceled k) (hl : s.leads = none)
    (hlisted : Lists (k.own.answer (.list tag) s.provider).1 listed) : ∃ looks rs s',
      (fetch tag).run (Surroundings.handler k) s = (some (rs.map .ofList), s') ∧
      Gathered (known listed) looks rs ∧
      k.own.Shows (k.own.answer (.list tag) s.provider).2 (looks.map .saw) s'.provider := by
  have hanswered := hs.answer (.list tag)
  rw [run_fetch hs]
  rw [Surroundings.answer_eq hl] at hanswered ⊢
  obtain ⟨out, s', moments, hrun, hsaw, looks, rs, rfl, hgathered, rfl⟩ :=
    Surroundings.exists_run hanswered hl (afterListing_meets_showing hlisted)
  exact ⟨looks, rs, s', hrun, hgathered, hsaw.shows⟩

/-- A fetch that is not canceled comes to an end. It tells the first refusal of an object that is
listed and known, and otherwise a snapshot of all that is found. Every snapshot in which things have
identifiers of their own falls apart into what the load balancers have. -/
theorem fetch_sorts_or_refuses {k : Conditions σ} {s : Surroundings σ} {tag : Tag}
    (hs : s.Uncanceled k) (hl : s.leads = none) :
    ∃ out s', (fetch tag).run (Surroundings.handler k) s = (some out, s') ∧
      (∀ listed look, Lists (k.own.answer (.list tag) s.provider).1 listed →
        k.own.Steady (k.own.answer (.list tag) s.provider).2 (known listed) look →
        (∀ before e after refusal, known listed = before ++ e :: after →
          (∀ b ∈ before, ∀ refusal, ¬ look.Refuses b refusal) → look.Refuses e refusal →
          out = .error (.provider refusal)) ∧
        ((∀ e ∈ known listed, ∀ refusal, ¬ look.Refuses e refusal) →
          ∃ snapshot, out = .ok snapshot ∧ snapshot.Sorts (look.found (known listed)))) ∧
      (∀ refusal, (k.own.answer (.list tag) s.provider).1 = .error refusal →
        (∀ message, refusal ≠ .unprocessable message) → out = .error (.provider refusal)) ∧
      ∀ snapshot, out = .ok snapshot → (identifiers snapshot.resources).Nodup →
        snapshot.Partitioned := by
  rcases exists_lists_or_refused (k.own.answer (.list tag) s.provider).1 with
    ⟨listed, hlisted⟩ | ⟨refusal, hrefused, hne⟩
  · obtain ⟨looks, rs, s', hrun, hgathered, hshows⟩ := exists_gathered hs hl hlisted
    refine ⟨_, s', hrun, ?_, ?_, ?_⟩
    · intro listed' look hlisted' hsteady
      cases hlisted.unique hlisted'
      have hlook : ∀ l ∈ looks, l.answer = look l.kind l.id :=
        hsteady.answer_eq [] hshows hgathered.map_target_prefix.sublist.subperm
      constructor
      · intro before e after refusal hentries hfree hrefused
        rw [hgathered.eq_error hlook hentries hfree hrefused]
        rfl
      · intro hfree
        rw [hgathered.eq_ok hlook hfree]
        exact ⟨_, rfl, Snapshot.sorts_ofList _⟩
    · intro refusal hrefused hne
      rcases hlisted with hok | ⟨⟨message, hmessage⟩, -⟩
      · cases hrefused.symm.trans hok
      · cases hrefused.symm.trans hmessage
        exact absurd rfl (hne message)
    · intro snapshot hok hn
      cases rs with
      | error _ => cases hok
      | ok rs =>
        cases hok
        exact Snapshot.partitioned_ofList hn
  · refine ⟨.error (.provider refusal), (s.answer k (.list tag)).2, ?_, ?_, ?_, nofun⟩
    · rw [run_fetch hs, Surroundings.answer_eq hl, hrefused, afterListing_eq_fail hne]
      rfl
    · rintro listed look (hok | ⟨⟨message, hmessage⟩, -⟩) -
      · cases hrefused.symm.trans hok
      · cases hrefused.symm.trans hmessage
        exact absurd rfl (hne message)
    · intro refusal' hrefused' _
      cases hrefused.symm.trans hrefused'
      rfl

end Engine

namespace Sample

/-- A listing with an object of unknown type and one that is gone, and a bind without its frontend.
-/
def shown : Answers
  | .backend, id => if id = ⟨"b-1"⟩ then
      .ok (.backend ⟨some id, "a", ⟨"lb-1"⟩, .tcp, .tcp, .ready false⟩) else .error .notFound
  | .frontend, id => .ok (.frontend ⟨some id, "a", ⟨"lb-2"⟩, ⟨"b-1"⟩, .tcp, .progressing⟩)
  | .bind, id => .ok (.bind ⟨some id, "a", ⟨"f-9"⟩, .v4 ⟨[192, 0, 2, 6], rfl⟩, 80, .ready true⟩)
  | .server, id =>
    .ok (.server ⟨some id, "a", ⟨"b-1"⟩, .v4 ⟨[192, 0, 2, 7], rfl⟩, 80, true, .progressing⟩)

def shelved : List Listed :=
  [⟨⟨"i-1"⟩, "lbaas.bind"⟩, ⟨⟨"x-1"⟩, "dns.zone"⟩, ⟨⟨"b-0"⟩, "lbaas.backend"⟩,
    ⟨⟨"b-1"⟩, "lbaas.backend"⟩, ⟨⟨"v-1"⟩, "lbaas.server"⟩, ⟨⟨"f-1"⟩, "lbaas.frontend"⟩]

def shelf : Provider Unit where
  answer
    | .get kind id, _ => (shown kind id, ())
    | .list _, _ => (.ok shelved, ())
    | .create _, _ | .destroy _ _, _ | .tag _ _, _ => (.error .rateLimited, ())

end Sample

theorem sample_fetch_sorts :
    (Surroundings.initial ()).Uncanceled ⟨Sample.shelf, Sample.shelf, fun _ => false⟩ ∧
    (Surroundings.initial ()).leads = none ∧
    ∃ snapshot s', (Engine.fetch (.ofService "1")).run
        (Surroundings.handler ⟨Sample.shelf, Sample.shelf, fun _ => false⟩) (.initial ()) =
          (some (.ok snapshot), s') ∧
      snapshot.Sorts (Sample.shown.found (known Sample.shelved)) ∧
      snapshot.Partitioned := by
  have hs : (Surroundings.initial ()).Uncanceled ⟨Sample.shelf, Sample.shelf, fun _ => false⟩ :=
    ⟨rfl, rfl, fun _ => rfl⟩
  obtain ⟨out, s', hrun, htells, -, hparts⟩ :=
    @Engine.fetch_sorts_or_refuses _ _ _ (.ofService "1") hs rfl
  have hfree : ∀ e ∈ known Sample.shelved, ∀ refusal,
      ¬ Sample.shown.Refuses e refusal := by
    have hknown : known Sample.shelved = [(.bind, ⟨"i-1"⟩), (.backend, ⟨"b-0"⟩),
        (.backend, ⟨"b-1"⟩), (.server, ⟨"v-1"⟩), (.frontend, ⟨"f-1"⟩)] := by decide +kernel
    rw [hknown]
    intro e he refusal hrefused
    simp only [List.mem_cons, List.not_mem_nil, or_false] at he
    rcases he with rfl | rfl | rfl | rfl | rfl <;> cases hrefused.1
    exact hrefused.2 rfl
  obtain ⟨snapshot, hok, hsorts⟩ := (htells Sample.shelved Sample.shown (.inl rfl) fun _ _ _ _ => rfl).2 hfree
  subst hok
  have hn : (identifiers snapshot.resources).Nodup :=
    (hsorts.perm.filterMap Resource.identifier).nodup_iff.2 (by decide +kernel)
  exact ⟨hs, rfl, snapshot, s', hrun, hsorts, hparts snapshot rfl hn⟩

end BalancerSync
