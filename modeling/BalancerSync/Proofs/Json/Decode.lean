import BalancerSync.Json.Decode
import BalancerSync.Proofs.Address
import BalancerSync.Proofs.Json.Number
import BalancerSync.Proofs.Json.Token
import BalancerSync.Proofs.OrderedMap

namespace BalancerSync

@[simp] theorem Numeral.toNat?_ofNat (n : Nat) : (ofNat n).toNat? = some n := by
  simp [toNat?, isInteger, ofNat]

theorem Numeral.isNatural_ofNat (n : Nat) : (ofNat n).isNatural := by
  simp [isNatural, ofNat]

namespace Json

variable {α β : Type} {p : Numeral → Bool} {decode : Json → Option α}

@[simp] theorem toText?_ofString (s : String) : (ofString s).toText? = some s := rfl

@[simp] theorem toBool?_bool (b : Bool) : (bool b).toBool? = some b := rfl

@[simp] theorem toUInt16?_ofNat (n : UInt16) : (ofNat n.toNat).toUInt16? = some n := by
  have hn : n.toNat < UInt16.size := n.toNat_lt
  simp [toUInt16?, toNatBelow?, ofNat, hn]

@[simp] theorem toAddress?_ofString (a : Address) : (ofString a.write).toAddress? = some a :=
  Address.read?_write a

theorem toList?_array {write : α → Json} {as : List α} (h : ∀ a ∈ as, decode (write a) = some a) :
    (array (as.map write)).toList? decode = some as :=
  mapM_map_eq_some h

theorem ofMembers_eq (members : List (String × Json)) :
    ofMembers members = object (members.map (Prod.map JsonString.text id)) := rfl

/-- The members of an object, where a value is written of each element of a list. -/
theorem toMembers?_ofMembers {name : β → String} {write : β → Json} {value : β → α} {bs : List β}
    (h : ∀ b ∈ bs, decode (write b) = some (value b)) :
    (ofMembers (bs.map fun b => (name b, write b))).toMembers? decode =
      some (bs.map fun b => (name b, value b)) := by
  rw [ofMembers_eq, toMembers?, List.map_map, mapM_eq_some_iff, List.map_map, List.map_map]
  refine List.map_congr_left fun b hb => ?_
  simp [member?, h b hb]

theorem toMembers?_entries {κ : Type} [LinearKey κ] (m : OrderedMap κ α) {name : κ → String}
    {key : String → κ} {write : α → Json} (hkey : ∀ k, key (name k) = k)
    (h : ∀ a, decode (write a) = some a) :
    ((ofMembers (m.entries.map fun e => (name e.1, write e.2))).toMembers? decode).bind
      (fun members => some (OrderedMap.ofList (members.map fun e => (key e.1, e.2)))) = some m := by
  have hentries : (m.entries.map fun e => (name e.1, e.2)).map (fun e => (key e.1, e.2)) =
      m.entries := by
    simp [Function.comp_def, hkey]
  have hmembers : (ofMembers (m.entries.map fun e => (name e.1, write e.2))).toMembers? decode =
      some (m.entries.map fun e => (name e.1, e.2)) :=
    toMembers?_ofMembers fun e _ => h e.2
  rw [hmembers, Option.bind_some, hentries, m.ofList_entries]

@[simp] theorem toFields?_ofMembers (names : List String) (members : List (String × Json)) :
    (ofMembers members).toFields? names = names.mapM (field? members) := by
  have hmembers : (ofMembers members).toMembers? some = some members := by
    have h : (ofMembers (members.map fun m => (m.1, m.2))).toMembers? some =
        some (members.map fun m => (m.1, m.2)) := toMembers?_ofMembers fun _ _ => rfl
    simpa using h
  change ((ofMembers members).toMembers? some).bind _ = _
  rw [hmembers]
  rfl

/-- A record is told by the member of the given name, if no other one has that name. -/
theorem toTagged?_ofMembers {name : String} {tag : Json} {members : List (String × Json)}
    (h : ∀ m ∈ members, m.1 ≠ name) :
    (ofMembers ((name, tag) :: members)).toTagged? name = some (tag, ofMembers members) := by
  have hother : ∀ m ∈ members.map (Prod.map JsonString.text id), m.1 ≠ .text name := by
    intro m hm
    obtain ⟨m', hm', rfl⟩ := List.mem_map.1 hm
    exact fun hk => h m' hm' (JsonString.text.inj hk)
  have htag : (members.map (Prod.map JsonString.text id)).filter (·.1 = .text name) = [] := by
    simpa using hother
  have hrest : (members.map (Prod.map JsonString.text id)).filter (·.1 ≠ .text name) =
      members.map (Prod.map JsonString.text id) :=
    List.filter_eq_self.2 fun m hm => decide_eq_true (hother m hm)
  rw [ofMembers_eq, List.map_cons, toTagged?, List.filter_cons_of_pos (by simp), htag,
    List.filter_cons_of_neg (by simp), hrest]
  rfl

theorem all_array {vs : List Json} : (array vs).all p ↔ ∀ v ∈ vs, v.all p := by
  change elementsAll p vs ↔ _
  induction vs with
  | nil => simp [elementsAll]
  | cons v vs ih => rw [elementsAll_cons_iff, ih, List.forall_mem_cons]

theorem all_ofMembers {members : List (String × Json)} :
    (ofMembers members).all p ↔ ∀ m ∈ members, m.2.all p := by
  rw [ofMembers]
  change membersAll p _ ↔ _
  induction members with
  | nil => simp [membersAll]
  | cons m ms ih =>
    rw [List.map_cons, membersAll_cons_iff, ih, List.forall_mem_cons]
    simp

theorem depth_ofMembers_le {members : List (String × Json)} {limit : Nat}
    (h : ∀ m ∈ members, m.2.depth ≤ limit) : (ofMembers members).depth ≤ limit + 1 := by
  refine Nat.succ_le_succ ?_
  induction members with
  | nil => exact Nat.zero_le limit
  | cons m ms ih =>
    obtain ⟨hm, hms⟩ := List.forall_mem_cons.1 h
    exact Nat.max_le.2 ⟨hm, ih hms⟩

end Json

end BalancerSync
