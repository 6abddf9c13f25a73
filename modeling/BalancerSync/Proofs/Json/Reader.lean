import BalancerSync.Json.Reader
import BalancerSync.Proofs.Json.Token

namespace BalancerSync.Json

namespace Reading

/-- A value does not begin with the end of an array. -/
theorem exists_tokens_eq_cons (v : Json) : ∃ t ts, v.tokens = t :: ts ∧ t ≠ .closeArray := by
  cases v with
  | array elements => exact ⟨_, _, rfl, nofun⟩
  | object members => exact ⟨_, _, rfl, nofun⟩
  | null | bool b | number n | string s => exact ⟨_, _, rfl, nofun⟩

/-- Behind an opening bracket the first element is read as any other one. -/
theorem foldlM_element (stack : List Frame) (v : Json) (vs : List Json) (ts : List Token) :
    (elementsTokens (v :: vs) ++ ts).foldlM step (.element stack) =
      (elementsTokens (v :: vs) ++ ts).foldlM step (.value (.array [] :: stack)) := by
  obtain ⟨t, rest, hv, ht⟩ := exists_tokens_eq_cons v
  have hstep : step (.element stack) t = step (.value (.array [] :: stack)) t := by
    cases t with
    | closeArray => exact absurd rfl ht
    | _ => rfl
  cases vs with
  | nil => rw [elementsTokens, hv, List.cons_append, List.foldlM_cons, List.foldlM_cons, hstep]
  | cons w vs =>
    rw [elementsTokens, hv, List.cons_append, List.cons_append, List.foldlM_cons, List.foldlM_cons,
      hstep]
    exact List.cons_ne_nil w vs

/-- Behind an opening brace the first name is read as any other one. -/
theorem foldlM_member (stack : List Frame) (m : JsonString × Json) (ms : List (JsonString × Json))
    (ts : List Token) : (membersTokens (m :: ms) ++ ts).foldlM step (.member stack) =
      (membersTokens (m :: ms) ++ ts).foldlM step (.name stack []) := by
  cases ms <;> rfl

mutual

/-- Once the tokens of a value have been read, the value has been read. -/
theorem foldlM_tokens (stack : List Frame) (ts : List Token) : (v : Json) →
    (v.tokens ++ ts).foldlM step (.value stack) = ts.foldlM step (.after stack v)
  | .null | .bool _ | .number _ | .string _ | .array [] | .object [] => rfl
  | .array (v :: vs) => by
    rw [tokens, List.append_assoc, List.cons_append]
    exact (foldlM_element stack v vs _).trans
      (foldlM_elementsTokens stack [] ts (v :: vs) (List.cons_ne_nil v vs))
  | .object (m :: ms) => by
    rw [tokens, List.append_assoc, List.cons_append]
    exact (foldlM_member stack m ms _).trans (foldlM_membersTokens stack [] ts (m :: ms) (List.cons_ne_nil m ms))

theorem foldlM_elementsTokens (stack : List Frame) (read : List Json) (ts : List Token) :
    (vs : List Json) → vs ≠ [] →
    (elementsTokens vs ++ .closeArray :: ts).foldlM step (.value (.array read :: stack)) =
      ts.foldlM step (.after stack (.array (read.reverse ++ vs)))
  | [], h => absurd rfl h
  | [v], _ => by
    refine (foldlM_tokens (.array read :: stack) (.closeArray :: ts) v).trans ?_
    change ts.foldlM step (.after stack (.array (v :: read).reverse)) = _
    rw [List.reverse_cons]
  | v :: w :: vs, _ => by
    rw [elementsTokens, List.append_assoc]
    · refine (foldlM_tokens (.array read :: stack) _ v).trans ?_
      refine (foldlM_elementsTokens stack (v :: read) ts (w :: vs) (List.cons_ne_nil w vs)).trans ?_
      rw [List.reverse_cons, List.append_assoc, List.singleton_append]
    · exact List.cons_ne_nil w vs

theorem foldlM_membersTokens (stack : List Frame) (read : List (JsonString × Json))
    (ts : List Token) : (ms : List (JsonString × Json)) → ms ≠ [] →
    (membersTokens ms ++ .closeObject :: ts).foldlM step (.name stack read) =
      ts.foldlM step (.after stack (.object (read.reverse ++ ms)))
  | [], h => absurd rfl h
  | [(k, v)], _ => by
    refine (foldlM_tokens (.object read k :: stack) (.closeObject :: ts) v).trans ?_
    change ts.foldlM step (.after stack (.object ((k, v) :: read).reverse)) = _
    rw [List.reverse_cons]
  | (k, v) :: m :: ms, _ => by
    rw [membersTokens, List.append_assoc, List.cons_append, List.cons_append]
    · refine (foldlM_tokens (.object read k :: stack) _ v).trans ?_
      refine (foldlM_membersTokens stack ((k, v) :: read) ts (m :: ms) (List.cons_ne_nil m ms)).trans ?_
      rw [List.reverse_cons, List.append_assoc, List.singleton_append]
    · exact List.cons_ne_nil m ms

end

end Reading

theorem read?_writePretty {v : Json} (hv : v.all Numeral.isNatural) :
    read? v.writePretty = some v := by
  have htokens : Token.list? (v.indented 0) = some v.tokens := by
    have hlexed : Token.Lexed (indented 0 v ++ []) (v.tokens ++ []) :=
      Token.lexed_indented 0 v hv trivial .nil
    rw [List.append_nil, List.append_nil] at hlexed
    exact hlexed.list?_eq
  have hread := Reading.foldlM_tokens [] [] v
  rw [List.append_nil] at hread
  rw [read?, writePretty, String.toList_ofList, htokens]
  simp only [Option.bind_eq_bind, Option.bind_some, hread]
  rfl

end BalancerSync.Json
