import BalancerSync.Json.Token
import BalancerSync.Json.Writer
import BalancerSync.Proofs.Text.Digits

namespace BalancerSync

def Numeral.isNatural (n : Numeral) : Bool := n = .ofNat (Nat.ofDigitChars 10 n.whole 0)

namespace Json

theorem elementsAll_cons_iff {p : Numeral → Bool} {v : Json} {vs : List Json} :
    elementsAll p (v :: vs) ↔ v.all p ∧ elementsAll p vs := by
  simp [elementsAll]

theorem membersAll_cons_iff {p : Numeral → Bool} {k : JsonString} {v : Json}
    {ms : List (JsonString × Json)} :
    membersAll p ((k, v) :: ms) ↔ k ≠ .unpaired ∧ v.all p ∧ membersAll p ms := by
  simp [membersAll, and_assoc]

variable {c : Char} {cs rest : List Char} {t : Token} {ts : List Token}

namespace Token

inductive Lexed : List Char → List Token → Prop
  | nil : Lexed [] []
  | blank {c : Char} {cs : List Char} {ts : List Token} (hc : isBlank c) (h : Lexed cs ts) :
      Lexed (c :: cs) ts
  | token {c : Char} {cs rest : List Char} {t : Token} {ts : List Token} (hc : ¬ isBlank c)
      (ht : next? (c :: cs) = some (t, rest)) (hlength : rest.length ≤ cs.length)
      (h : Lexed rest ts) : Lexed (c :: cs) (t :: ts)

theorem Lexed.listUpTo?_eq (h : Lexed cs ts) {bound : Nat} (hbound : cs.length ≤ bound) :
    listUpTo? bound cs = some ts := by
  induction h generalizing bound with
  | nil => cases bound <;> rfl
  | blank hc h ih =>
    cases bound with
    | zero => cases hbound
    | succ bound =>
      rw [listUpTo?, if_pos hc]
      exact ih (Nat.le_of_succ_le_succ hbound)
  | token hc ht hlength h ih =>
    cases bound with
    | zero => cases hbound
    | succ bound =>
      have hrest := ih (Nat.le_trans hlength (Nat.le_of_succ_le_succ hbound))
      simp [listUpTo?, hc, ht, hrest]

theorem Lexed.list?_eq (h : Lexed cs ts) : list? cs = some ts := h.listUpTo?_eq (Nat.le_refl _)

theorem pieces?_plain (hc : 0x20 ≤ c.toNat) (hquote : c ≠ '"') (hbackslash : c ≠ '\\') :
    pieces? (c :: rest) = (pieces? rest).map fun (ps, rest) => (.char c :: ps, rest) := by
  rw [pieces?, if_neg]
  · cases pieces? rest <;> rfl
  · simp [hbackslash]
    omega
  · exact hquote
  · intro _ _ _ _ _ h
    exact absurd h hbackslash
  · intro _ _ h
    exact absurd h hbackslash

theorem pieces?_escaped {letter : Char} (hletter : escape? letter = some c) :
    pieces? ('\\' :: letter :: rest) =
      (pieces? rest).map fun (ps, rest) => (.char c :: ps, rest) := by
  rw [pieces?, hletter]
  · cases pieces? rest <;> rfl
  · rintro _ _ _ _ _ rfl
    cases hletter

theorem pieces?_unit {n : Nat} (hn : n < 16 ^ 4) :
    pieces? ('\\' :: 'u' :: Text.paddedDigits 16 4 n ++ rest) =
      (pieces? rest).map fun (ps, rest) => (.unit n :: ps, rest) := by
  have hread : Text.readNumber? 16 (Text.paddedDigits 16 4 n) = some n :=
    Text.readNumber?_paddedDigits (by decide) (by decide)
  have hlength : (Text.paddedDigits 16 4 n).length = 4 :=
    Text.length_paddedDigits_of_lt (by decide) (by decide) hn
  match hdigits : Text.paddedDigits 16 4 n, hlength with
  | [a, b, c, d], _ =>
    rw [hdigits] at hread
    simp only [List.cons_append, List.nil_append]
    rw [pieces?, hread]
    cases pieces? rest <;> rfl

theorem assemble?_unit {n : Nat} (hn : n < 0xd800) (ps : List Piece) :
    assemble? (.unit n :: ps) = (assemble? ps).map (Char.ofNat n :: ·) := by
  have hhigh : isHighSurrogate n = false := by simp [isHighSurrogate]; omega
  have hlow : isLowSurrogate n = false := by simp [isLowSurrogate]; omega
  cases ps with
  | nil => simp [assemble?, hhigh, hlow]
  | cons p ps => cases p <;> simp [assemble?, hhigh, hlow]

/-- The escape of a character is one piece, which stands for that character. -/
theorem exists_piece (c : Char) : ∃ p : Piece,
    (∀ rest, pieces? (escape c ++ rest) = (pieces? rest).map fun (ps, rest) => (p :: ps, rest)) ∧
    ∀ ps, assemble? (p :: ps) = (assemble? ps).map (c :: ·) := by
  unfold escape
  split
  case h_8 hquote hbackslash _ _ _ _ _ =>
    split
    next hc =>
      refine ⟨.unit c.toNat, fun rest => pieces?_unit (by omega), fun ps => ?_⟩
      rw [assemble?_unit (by omega), Char.ofNat_toNat]
    next hc => exact ⟨.char c, fun rest => pieces?_plain (by omega) hquote hbackslash, fun _ => rfl⟩
  all_goals exact ⟨.char _, fun rest => pieces?_escaped rfl, fun _ => rfl⟩

theorem exists_pieces (cs rest : List Char) : ∃ ps,
    pieces? (cs.flatMap escape ++ '"' :: rest) = some (ps, rest) ∧ assemble? ps = some cs := by
  induction cs with
  | nil => exact ⟨[], rfl, rfl⟩
  | cons c cs ih =>
    obtain ⟨ps, hps, hcs⟩ := ih
    obtain ⟨p, hp, hc⟩ := exists_piece c
    refine ⟨p :: ps, ?_, ?_⟩
    · rw [List.flatMap_cons, List.append_assoc, hp, hps]
      rfl
    · rw [hc, hcs]
      rfl

theorem string?_escape (s : String) (rest : List Char) :
    string? (s.toList.flatMap escape ++ '"' :: rest) = some (.text s, rest) := by
  obtain ⟨ps, hps, hs⟩ := exists_pieces s.toList rest
  simp [string?, hps, hs]

def Terminated : List Char → Prop
  | [] => True
  | c :: _ => c = ',' ∨ c = '\n'

theorem terminated_comma : Terminated (',' :: cs) := .inl rfl

theorem terminated_newline (level : Nat) : Terminated (newline level ++ cs) := .inr rfl

theorem isDigit_of_mem_toDigits {n : Nat} (h : c ∈ Nat.toDigits 10 n) : isDigit c := by
  have hc := Nat.isDigit_of_mem_toDigits (by decide) (by decide) h
  simpa [isDigit, Char.isDigit, Char.le_def] using hc

theorem digits?_append {ds : List Char} (hne : ds ≠ []) (hds : ∀ c ∈ ds, isDigit c)
    (hrest : Terminated rest) : digits? (ds ++ rest) = some (ds, rest) := by
  have htake : rest.takeWhile isDigit = [] := by
    cases rest with
    | nil => rfl
    | cons c rest => rcases hrest with rfl | rfl <;> rfl
  have hdrop : rest.dropWhile isDigit = rest := by
    cases rest with
    | nil => rfl
    | cons c rest => rcases hrest with rfl | rfl <;> rfl
  obtain ⟨c, cs, rfl⟩ := List.exists_cons_of_ne_nil hne
  rw [digits?, if_pos, List.takeWhile_append_of_pos hds, List.dropWhile_append_of_pos hds, htake,
    hdrop, List.append_nil]
  simpa using hds c List.mem_cons_self

theorem fraction?_of_terminated (h : Terminated rest) : fraction? rest = some ([], rest) := by
  cases rest with
  | nil => rfl
  | cons c rest => rcases h with rfl | rfl <;> rfl

theorem exponent?_of_terminated (h : Terminated rest) : exponent? rest = some (none, rest) := by
  cases rest with
  | nil => rfl
  | cons c rest => rcases h with rfl | rfl <;> rfl

theorem exists_toDigits_eq_cons (n : Nat) : ∃ d ds, Nat.toDigits 10 n = d :: ds ∧ isDigit d := by
  obtain ⟨d, ds, hds⟩ := List.exists_cons_of_ne_nil (Nat.toDigits_ne_nil (n := n) (b := 10))
  exact ⟨d, ds, hds, isDigit_of_mem_toDigits (hds ▸ List.mem_cons_self)⟩

theorem whole?_toDigits (n : Nat) (h : Terminated rest) :
    whole? (Nat.toDigits 10 n ++ rest) = some (Nat.toDigits 10 n, rest) := by
  rcases Nat.eq_zero_or_pos n with rfl | hn
  · rfl
  · have hhead : (Nat.toDigits 10 n).head? ≠ some '0' :=
      Text.head?_toDigits_ne_zero (by decide) hn
    obtain ⟨d, ds, hds, -⟩ := exists_toDigits_eq_cons n
    rw [whole?, digits?_append Nat.toDigits_ne_nil (fun _ => isDigit_of_mem_toDigits) h]
    intro _ hzero
    rw [hds, List.cons_append] at hzero
    rw [hds, (List.cons.inj hzero).1] at hhead
    exact hhead rfl

theorem numeral?_toDigits (n : Nat) (h : Terminated rest) :
    numeral? (Nat.toDigits 10 n ++ rest) = some (.ofNat n, rest) := by
  obtain ⟨d, ds, hds, hd⟩ := exists_toDigits_eq_cons n
  rw [numeral?, unsigned?, whole?_toDigits n h]
  · simp [fraction?_of_terminated h, exponent?_of_terminated h, Numeral.ofNat]
  · intro _ hminus
    rw [hds, List.cons_append] at hminus
    rw [(List.cons.inj hminus).1] at hd
    cases hd

theorem next?_of_isDigit (hc : isDigit c) :
    next? (c :: rest) = (numeral? (c :: rest)).map fun (n, rest) => (.number n, rest) := by
  rw [next?]
  all_goals
    rintro _ ⟨⟩
    cases hc

namespace Lexed

theorem comma (h : Lexed rest ts) : Lexed (',' :: rest) (.comma :: ts) :=
  .token (by decide) rfl (Nat.le_refl _) h

theorem colon (h : Lexed rest ts) : Lexed (':' :: rest) (.colon :: ts) :=
  .token (by decide) rfl (Nat.le_refl _) h

theorem openArray (h : Lexed rest ts) : Lexed ('[' :: rest) (.openArray :: ts) :=
  .token (by decide) rfl (Nat.le_refl _) h

theorem closeArray (h : Lexed rest ts) : Lexed (']' :: rest) (.closeArray :: ts) :=
  .token (by decide) rfl (Nat.le_refl _) h

theorem openObject (h : Lexed rest ts) : Lexed ('{' :: rest) (.openObject :: ts) :=
  .token (by decide) rfl (Nat.le_refl _) h

theorem closeObject (h : Lexed rest ts) : Lexed ('}' :: rest) (.closeObject :: ts) :=
  .token (by decide) rfl (Nat.le_refl _) h

theorem string (s : String) (h : Lexed rest ts) :
    Lexed (writeString (.text s) ++ rest) (.string (.text s) :: ts) := by
  have hwrite :
      writeString (.text s) ++ rest = '"' :: (s.toList.flatMap escape ++ '"' :: rest) := by
    change '"' :: s.toList.flatMap escape ++ ['"'] ++ rest = _
    rw [List.append_assoc, List.cons_append, List.singleton_append]
  have ht : next? ('"' :: (s.toList.flatMap escape ++ '"' :: rest)) =
      some (.string (.text s), rest) := by
    rw [next?, string?_escape]
    rfl
  rw [hwrite]
  refine .token (by decide) ht ?_ h
  rw [List.length_append, List.length_cons]
  omega

theorem number (n : Nat) (hrest : Terminated rest) (h : Lexed rest ts) :
    Lexed (writeNumeral (.ofNat n) ++ rest) (.number (.ofNat n) :: ts) := by
  obtain ⟨d, ds, hds, hd⟩ := exists_toDigits_eq_cons n
  have hwrite : writeNumeral (.ofNat n) = d :: ds := by
    simpa [writeNumeral, Numeral.ofNat] using hds
  have hblank : ¬ isBlank d := by
    intro hblank
    simp only [isBlank, Bool.decide_or, Bool.or_eq_true, decide_eq_true_eq] at hblank
    rcases hblank with rfl | rfl | rfl | rfl <;> cases hd
  have ht := numeral?_toDigits n hrest
  rw [hds, List.cons_append] at ht
  rw [hwrite, List.cons_append]
  refine .token hblank (by rw [next?_of_isDigit hd, ht]; rfl) ?_ h
  rw [List.length_append]
  omega

theorem newline (level : Nat) (h : Lexed rest ts) : Lexed (newline level ++ rest) ts := by
  rw [Json.newline, List.cons_append]
  refine .blank rfl ?_
  generalize 2 * level = blanks
  induction blanks with
  | zero => exact h
  | succ blanks ih => exact .blank rfl ih

theorem member (level : Nat) {k : JsonString} (hk : k ≠ .unpaired) (h : Lexed rest ts) :
    Lexed (Json.newline level ++ writeString k ++ [':', ' '] ++ rest)
      (.string k :: .colon :: ts) := by
  cases k with
  | text s => simpa using ((Lexed.blank (c := ' ') rfl h).colon.string s).newline level
  | unpaired => exact absurd rfl hk

end Lexed

end Token

mutual

def tokens : Json → List Token
  | null => [.null]
  | bool b => [.bool b]
  | number n => [.number n]
  | string s => [.string s]
  | array elements => .openArray :: elementsTokens elements ++ [.closeArray]
  | object members => .openObject :: membersTokens members ++ [.closeObject]

def elementsTokens : List Json → List Token
  | [] => []
  | [v] => v.tokens
  | v :: rest => v.tokens ++ .comma :: elementsTokens rest

def membersTokens : List (JsonString × Json) → List Token
  | [] => []
  | [(k, v)] => .string k :: .colon :: v.tokens
  | (k, v) :: rest => .string k :: .colon :: v.tokens ++ .comma :: membersTokens rest

end

namespace Token

mutual

/-- A value is cut into its tokens, whatever comes after it. -/
theorem lexed_indented (level : Nat) {rest : List Char} {ts : List Token} : (v : Json) →
    v.all Numeral.isNatural → Terminated rest → Lexed rest ts →
    Lexed (indented level v ++ rest) (v.tokens ++ ts)
  | .null, _, _, h => .token (by decide) rfl (Nat.le_add_right _ 3) h
  | .bool true, _, _, h => .token (by decide) rfl (Nat.le_add_right _ 3) h
  | .bool false, _, _, h => .token (by decide) rfl (Nat.le_add_right _ 4) h
  | .number n, hv, hrest, h => by
    rw [indented, tokens, of_decide_eq_true hv]
    exact .number _ hrest h
  | .string (.text s), _, _, h => by
    rw [indented, tokens]
    exact .string s h
  | .string .unpaired, hv, _, _ => by cases hv
  | .array [], _, _, h => .openArray (.closeArray h)
  | .array (v :: vs), hv, _, h => by
    have helements := lexed_indentedElements (level + 1) (v :: vs) hv (terminated_newline level)
      (h.closeArray.newline level)
    rw [indented, tokens]
    simpa using helements.openArray
  | .object [], _, _, h => .openObject (.closeObject h)
  | .object (m :: ms), hv, _, h => by
    have hmembers := lexed_indentedMembers (level + 1) (m :: ms) hv (terminated_newline level)
      (h.closeObject.newline level)
    rw [indented, tokens]
    simpa using hmembers.openObject

theorem lexed_indentedElements (level : Nat) {rest : List Char} {ts : List Token} :
    (vs : List Json) → elementsAll Numeral.isNatural vs → Terminated rest → Lexed rest ts →
    Lexed (indentedElements level vs ++ rest) (elementsTokens vs ++ ts)
  | [], _, _, h => h
  | [v], hv, hrest, h => by
    obtain ⟨hv, -⟩ := elementsAll_cons_iff.1 hv
    rw [indentedElements, elementsTokens, List.append_assoc]
    exact (lexed_indented level v hv hrest h).newline level
  | v :: w :: vs, hv, hrest, h => by
    obtain ⟨hv, hvs⟩ := elementsAll_cons_iff.1 hv
    have helements := lexed_indentedElements level (w :: vs) hvs hrest h
    have hvalue := lexed_indented level v hv terminated_comma helements.comma
    rw [indentedElements, elementsTokens]
    · simpa using hvalue.newline level
    · nofun
    · nofun

theorem lexed_indentedMembers (level : Nat) {rest : List Char} {ts : List Token} :
    (ms : List (JsonString × Json)) → membersAll Numeral.isNatural ms → Terminated rest →
    Lexed rest ts → Lexed (indentedMembers level ms ++ rest) (membersTokens ms ++ ts)
  | [], _, _, h => h
  | [(k, v)], hv, hrest, h => by
    obtain ⟨hk, hv, -⟩ := membersAll_cons_iff.1 hv
    rw [indentedMembers, membersTokens]
    simpa using (lexed_indented level v hv hrest h).member level hk
  | (k, v) :: m :: ms, hv, hrest, h => by
    obtain ⟨hk, hv, hms⟩ := membersAll_cons_iff.1 hv
    have hmembers := lexed_indentedMembers level (m :: ms) hms hrest h
    have hvalue := lexed_indented level v hv terminated_comma hmembers.comma
    rw [indentedMembers, membersTokens]
    · simpa using hvalue.member level hk
    · nofun
    · nofun

end

end Token

end Json

end BalancerSync
