import FleetControl.Proofs.Decimal.Layout
import FleetControl.Proofs.Json.Canonical

/-! # Reading written values back

The written form of a value is read as a tree of the same shape. The tree denotes the value again
if every number reads back as itself, members are in order and nesting stays within the limit. -/
namespace FleetControl

namespace Number

/-- The literal that a number is written as. -/
def literal : Number → Tree.Literal
  | .int i => .ofInt i
  | .double d => Shortest.literalOf d

/-- What the written form of a number denotes, if anything. -/
def reread (n : Number) : Option Number := n.literal.number?

theorem proper_literal (n : Number) : n.literal.Proper := by
  cases n with
  | int i => exact Tree.Literal.proper_ofInt i
  | double d => exact Shortest.proper_literalOf d

theorem toList_int (i : Int) :
    (toString i).toList = (if i < 0 then ['-'] else []) ++ (Tree.Literal.ofInt i).chars := by
  have hchars : (Tree.Literal.ofInt i).chars = Nat.toDigits 10 i.natAbs := by
    simp [Tree.Literal.chars, Tree.Literal.ofInt, Tree.fractionChars, Tree.exponentChars,
      Tree.numeral_chars]
  rw [hchars, Int.toString_eq_repr, Int.repr_eq_if]
  by_cases h : i < 0
  · rw [if_neg (by omega), if_pos h, String.toList_append, Nat.toList_repr]
    rw [show (-i).toNat = i.natAbs by omega]
    rfl
  · rw [if_pos (by omega), if_neg h, Nat.toList_repr, show i.toNat = i.natAbs by omega]
    rfl

theorem toList_numberText (n : Number) : (Json.numberText n).toList =
    (if n.literal.negative then ['-'] else []) ++ n.literal.chars := by
  cases n with
  | int i =>
    rw [Json.numberText, toList_int]
    simp [literal, Tree.Literal.ofInt]
  | double d =>
    rw [Json.numberText, Shortest.toList_text]
    simp [literal, Shortest.negative_literalOf]

/-- An integer that fits 64 bits, or a double whose text reads back as the same one. -/
def Exact : Number → Prop
  | int i => -(2 ^ 63) ≤ i ∧ i < 2 ^ 64
  | double d => (double d).reread = some (double d)

theorem Exact.reread {n : Number} (h : n.Exact) : n.reread = some n := by
  cases n with
  | int i => exact Tree.Literal.number_ofInt h.1 h.2
  | double d => exact h

end Number

namespace Tree

theorem skip_of_not_blank {c : Char} (h : isBlank c = false) (cs : List Char) :
    skip (c :: cs) = c :: cs := by
  rw [skip, h]
  rfl

theorem literal_chars_cons {l : Literal} (h : l.Proper) :
    ∃ d cs, d < 10 ∧ l.chars = Nat.digitChar d :: cs := by
  obtain ⟨d, ds, hd⟩ := List.exists_cons_of_ne_nil h.present
  have hdigits := h.whole
  rw [hd, digits_cons] at hdigits
  exact ⟨d, _, hdigits.1, by rw [Literal.chars, hd, List.map_cons, List.cons_append]⟩

theorem readValue_digit {c : Char} (h : c.isDigit = true) (fuel : Nat) (cs : List Char) :
    readValue (fuel + 1) (c :: cs) =
      (readNumber false (c :: cs)).map fun (n, r) => (number n, r) := by
  have hne : ∀ x, x.isDigit = false → x ≠ c := by
    rintro x hx rfl
    rw [h] at hx
    cases hx
  have hblank : isBlank c = false := by
    simp only [isBlank, Bool.or_eq_false_iff, beq_eq_false_iff_ne]
    exact ⟨⟨⟨(hne ' ' rfl).symm, (hne '\t' rfl).symm⟩, (hne '\n' rfl).symm⟩, (hne '\r' rfl).symm⟩
  rw [readValue, skip_of_not_blank hblank]
  split
  case h_1 heq => cases heq
  case h_9 => rfl
  all_goals exact absurd (List.cons.inj ‹c :: cs = _›).1.symm (hne _ rfl)

/-- A written number is read as what it denotes. -/
theorem readValue_number (n : Number) (fuel : Nat) {rest : Rest} (hrest : Delimited rest) :
    readValue (fuel + 1) ((Json.numberText n).toList ++ rest) = some (number n.reread, rest) := by
  have hread := readNumber_chars n.proper_literal hrest
  rw [Number.toList_numberText]
  cases hneg : n.literal.negative with
  | true =>
    rw [hneg] at hread
    rw [if_pos rfl, List.cons_append, List.nil_append, List.cons_append, readValue,
      skip_of_not_blank (by decide)]
    simp only [hread]
    rfl
  | false =>
    rw [hneg] at hread
    obtain ⟨d, cs, hd, hchars⟩ := literal_chars_cons n.proper_literal
    rw [if_neg (by decide), List.nil_append]
    rw [hchars, List.cons_append] at hread ⊢
    rw [readValue_digit (digit_back hd).1, hread]
    rfl

end Tree

namespace Json

mutual

/-- What the written form of a value is read as. -/
def tree : Json → Tree
  | null => .null
  | bool b => .bool b
  | number n => .number n.reread
  | string s => .string (some s)
  | array items => .array (treeItems items)
  | object members => .object (treeMembers members)

def treeItems : List Json → List Tree
  | [] => []
  | item :: items => tree item :: treeItems items

def treeMembers : List (String × Json) → List (Option String × Tree)
  | [] => []
  | (key, value) :: members => (some key, tree value) :: treeMembers members

end

theorem tree_string (s : String) : (string s).tree = .string (some s) := by
  rw [tree]

theorem tree_object (members : List (String × Json)) :
    (object members).tree = .object (treeMembers members) := by
  rw [tree]

theorem readString_spelled {escape : Char → List Char} (h : ∀ c, ReadBack escape c) (s : String)
    (rest : List Char) : Tree.readString "" true (s.toList.flatMap escape ++ '"' :: rest) =
      some (some s, rest) := by
  rw [readString_written h, String.ofList_toList, String.empty_append]

/-- Neither a blank nor a closing bracket begins a value. -/
theorem spell_front (escape : Char → List Char) (v : Json) :
    ∃ c cs, spell escape v = c :: cs ∧ Tree.isBlank c = false ∧ c ≠ ']' := by
  cases v with
  | null => exact ⟨_, _, rfl, rfl, by decide⟩
  | bool b => cases b <;> exact ⟨_, _, rfl, rfl, by decide⟩
  | number n =>
    obtain ⟨c, rest, h⟩ := List.exists_cons_of_ne_nil (number_text_ne_nil n)
    have hc : isNumeral c = true := isNumeral_of_mem_number (n := n) (by simp [h])
    refine ⟨c, rest, h, ?_, ?_⟩
    · by_contra hblank
      simp only [Bool.not_eq_false, Tree.isBlank, Bool.or_eq_true, beq_iff_eq] at hblank
      rcases hblank with ((rfl | rfl) | rfl) | rfl <;> cases hc
    · rintro rfl
      cases hc
  | string s => exact ⟨_, _, rfl, rfl, by decide⟩
  | array items => cases items <;> exact ⟨_, _, rfl, rfl, by decide⟩
  | object members => cases members <;> exact ⟨_, _, rfl, rfl, by decide⟩

theorem delimited_spellItems (escape : Char → List Char) (items : List Json) (rest : List Char) :
    Tree.Delimited (spellItems escape items ++ ']' :: rest) := by
  cases items <;> exact Tree.delimited_cons (by simp) _

theorem delimited_spellMembers (escape : Char → List Char) (members : List (String × Json))
    (rest : List Char) : Tree.Delimited (spellMembers escape members ++ '\x7d' :: rest) := by
  cases members <;> exact Tree.delimited_cons (by simp) _

mutual

/-- A written value is read as its tree, and what follows it is left over. -/
theorem readValue_spell {escape : Char → List Char} (h : ∀ c, ReadBack escape c) :
    ∀ (v : Json) (fuel : Nat) (rest : List Char), (spell escape v).length < fuel →
      Tree.Delimited rest → Tree.readValue fuel (spell escape v ++ rest) = some (v.tree, rest)
  | null, fuel + 1, rest, _, _ => rfl
  | bool true, fuel + 1, rest, _, _ => rfl
  | bool false, fuel + 1, rest, _, _ => rfl
  | number n, fuel + 1, rest, _, hrest => Tree.readValue_number n fuel hrest
  | string s, fuel + 1, rest, _, _ => by
    rw [spell, spellString, List.cons_append, List.cons_append, List.append_assoc,
      Tree.readValue, Tree.skip_of_not_blank rfl]
    simp only [List.cons_append, List.nil_append, readString_spelled h]
    rfl
  | array [], fuel + 1, rest, _, _ => rfl
  | array (item :: items), fuel + 1, rest, hfuel, hrest => by
    have hitems := readItems_spell h (item :: items) (List.cons_ne_nil _ _) fuel [] rest
      (by
        simp only [spell, spellItems, List.cons_append, List.length_cons, List.length_append,
          List.length_nil] at hfuel ⊢
        omega)
    obtain ⟨c, cs, hfront, hblank, hclose⟩ := spell_front escape item
    simp only [spellItems, List.cons_append, List.tail_cons] at hitems
    rw [hfront] at hitems
    rw [spell, hfront]
    simp only [List.cons_append, List.append_assoc, List.nil_append] at hitems ⊢
    rw [Tree.readValue, Tree.skip_of_not_blank rfl]
    simp only [Tree.skip_of_not_blank hblank]
    split
    · rename_i heq
      exact absurd (List.cons.inj heq).1 hclose
    · exact hitems
  | object [], fuel + 1, rest, _, _ => rfl
  | object ((key, value) :: members), fuel + 1, rest, hfuel, hrest => by
    have hmembers := readMembers_spell h ((key, value) :: members) (List.cons_ne_nil _ _) fuel []
      rest (by
        simp only [spell, spellMembers, List.cons_append, List.length_cons, List.length_append,
          List.length_nil] at hfuel ⊢
        omega)
    simp only [spellMembers, spellString, List.cons_append, List.append_assoc, List.nil_append,
      List.tail_cons] at hmembers
    rw [spell, spellString]
    simp only [List.cons_append, List.append_assoc, List.nil_append]
    rw [Tree.readValue, Tree.skip_of_not_blank rfl]
    simp only [Tree.skip_of_not_blank (show Tree.isBlank '"' = false from rfl)]
    exact hmembers

theorem readItems_spell {escape : Char → List Char} (h : ∀ c, ReadBack escape c) :
    ∀ (items : List Json), items ≠ [] → ∀ (fuel : Nat) (done : List Tree) (rest : List Char),
      (spellItems escape items).length < fuel →
      Tree.readItems fuel done ((spellItems escape items).tail ++ ']' :: rest) =
        some (.array (done.reverse ++ treeItems items), rest)
  | item :: items, _, fuel + 1, done, rest, hfuel => by
    simp only [spellItems, List.length_append, List.length_cons, List.cons_append] at hfuel
    have hitem := readValue_spell h item fuel (spellItems escape items ++ ']' :: rest) (by omega)
      (delimited_spellItems escape items rest)
    simp only [spellItems, List.cons_append, List.tail_cons, List.append_assoc]
    rw [Tree.readItems, hitem]
    cases items with
    | nil =>
      simp [spellItems, Tree.skip_of_not_blank (show Tree.isBlank ']' = false from rfl), treeItems]
    | cons next items =>
      have hitems := readItems_spell h (next :: items) (List.cons_ne_nil _ _) fuel
        (item.tree :: done) rest (by omega)
      simp only [spellItems, List.cons_append, List.tail_cons] at hitems ⊢
      simp only [Tree.skip_of_not_blank (show Tree.isBlank ',' = false from rfl)]
      rw [hitems]
      simp [treeItems]

theorem readMembers_spell {escape : Char → List Char} (h : ∀ c, ReadBack escape c) :
    ∀ (members : List (String × Json)), members ≠ [] → ∀ (fuel : Nat)
      (done : List (Option String × Tree)) (rest : List Char),
      (spellMembers escape members).length < fuel →
      Tree.readMembers fuel done ((spellMembers escape members).tail ++ '\x7d' :: rest) =
        some (.object (done.reverse ++ treeMembers members), rest)
  | (key, value) :: members, _, fuel + 1, done, rest, hfuel => by
    simp only [spellMembers, List.length_append, List.length_cons, List.cons_append] at hfuel
    have hvalue := readValue_spell h value fuel (spellMembers escape members ++ '\x7d' :: rest)
      (by omega) (delimited_spellMembers escape members rest)
    simp only [spellMembers, spellString, List.cons_append, List.tail_cons, List.append_assoc,
      List.nil_append]
    rw [Tree.readMembers, Tree.skip_of_not_blank (show Tree.isBlank '"' = false from rfl)]
    simp only [readString_spelled h,
      Tree.skip_of_not_blank (show Tree.isBlank ':' = false from rfl), hvalue]
    cases members with
    | nil =>
      simp [spellMembers, Tree.skip_of_not_blank (show Tree.isBlank '\x7d' = false from rfl),
        treeMembers]
    | cons next members =>
      have hmembers := readMembers_spell h (next :: members) (List.cons_ne_nil _ _) fuel
        ((some key, value.tree) :: done) rest (by omega)
      simp only [spellMembers, List.cons_append, List.tail_cons] at hmembers ⊢
      simp only [Tree.skip_of_not_blank (show Tree.isBlank ',' = false from rfl)]
      rw [hmembers]
      simp [treeMembers]

end

/-- A text that spells a value is read as its tree. -/
theorem ofChars_spell {escape : Char → List Char} (h : ∀ c, ReadBack escape c) (v : Json) :
    Tree.ofChars? (spell escape v) = some v.tree := by
  have hread := readValue_spell h v ((spell escape v).length + 1) [] (Nat.lt_succ_self _)
    Tree.delimited_nil
  rw [List.append_nil] at hread
  simp only [Tree.ofChars?, hread]
  rfl

/-! ## The value of a tree -/

mutual

/-- Every number is exact, and the members of every object are in order. -/
def Faithful : Json → Prop
  | number n => n.Exact
  | array items => FaithfulItems items
  | object members => members.Pairwise (fun a b => a.1 < b.1) ∧ FaithfulMembers members
  | _ => True

def FaithfulItems : List Json → Prop
  | [] => True
  | item :: items => Faithful item ∧ FaithfulItems items

def FaithfulMembers : List (String × Json) → Prop
  | [] => True
  | (_, value) :: members => Faithful value ∧ FaithfulMembers members

end

mutual

/-- Levels of arrays and objects. -/
def nesting : Json → Nat
  | array items => nestingItems items + 1
  | object members => nestingMembers members + 1
  | _ => 0

def nestingItems : List Json → Nat
  | [] => 0
  | item :: items => max (nesting item) (nestingItems items)

def nestingMembers : List (String × Json) → Nat
  | [] => 0
  | (_, value) :: members => max (nesting value) (nestingMembers members)

end

/-- A member behind all others goes to the end. -/
theorem insertMember_last {key : String} (value : Json) {members : List (String × Json)}
    (h : ∀ m ∈ members, m.1 < key) :
    insertMember key value members = members ++ [(key, value)] := by
  induction members with
  | nil => rfl
  | cons m members ih =>
    obtain ⟨hm, hmembers⟩ := List.forall_mem_cons.mp h
    rw [insertMember, if_neg hm.ne', if_neg (not_lt_of_gt hm), ih hmembers]
    rfl

mutual

theorem value_tree : ∀ (v : Json) (depth : Nat), v.Faithful → v.nesting ≤ depth →
    Tree.value? depth v.tree = some v
  | null, _, _, _ => by rw [tree, Tree.value?]
  | bool b, _, _, _ => by rw [tree, Tree.value?]
  | number n, _, hv, _ => by
    rw [Faithful] at hv
    rw [tree, Tree.value?, hv.reread]
    rfl
  | string s, _, _, _ => by
    rw [tree, Tree.value?]
    rfl
  | array items, depth, hv, hdepth => by
    rw [Faithful] at hv
    rw [nesting] at hdepth
    obtain ⟨inner, rfl⟩ := Nat.exists_eq_succ_of_ne_zero (n := depth) (by omega)
    have hitems := values_treeItems items inner [] hv (by omega)
    rw [tree, Tree.value?, hitems]
    rfl
  | object members, depth, hv, hdepth => by
    rw [Faithful] at hv
    rw [nesting] at hdepth
    obtain ⟨inner, rfl⟩ := Nat.exists_eq_succ_of_ne_zero (n := depth) (by omega)
    have hmembers := members_treeMembers members inner [] hv.2 (by simpa using hv.1) (by omega)
    rw [tree, Tree.value?, hmembers]
    rfl

theorem values_treeItems : ∀ (items : List Json) (depth : Nat) (done : List Json),
    FaithfulItems items → nestingItems items ≤ depth →
    Tree.values? depth done (treeItems items) = some (done.reverse ++ items)
  | [], _, done, _, _ => by
    rw [treeItems, Tree.values?, List.append_nil]
  | item :: items, depth, done, hv, hdepth => by
    rw [FaithfulItems] at hv
    rw [nestingItems] at hdepth
    have hitem := value_tree item depth hv.1 (by omega)
    rw [treeItems, Tree.values?, hitem]
    have hitems := values_treeItems items depth (item :: done) hv.2 (by omega)
    simpa using hitems

theorem members_treeMembers : ∀ (members : List (String × Json)) (depth : Nat)
    (done : List (String × Json)), FaithfulMembers members →
    (done ++ members).Pairwise (fun a b => a.1 < b.1) → nestingMembers members ≤ depth →
    Tree.members? depth done (treeMembers members) = some (done ++ members)
  | [], _, done, _, _, _ => by
    rw [treeMembers, Tree.members?, List.append_nil]
  | (key, value) :: members, depth, done, hv, hsorted, hdepth => by
    rw [FaithfulMembers] at hv
    rw [nestingMembers] at hdepth
    have hvalue := value_tree value depth hv.1 (by omega)
    have hlast : ∀ m ∈ done, m.1 < key := fun m hm =>
      (List.pairwise_append.mp hsorted).2.2 m hm (key, value) (List.mem_cons_self ..)
    have hsplit : done ++ (key, value) :: members = (done ++ [(key, value)]) ++ members := by
      simp
    have hmembers := members_treeMembers members depth (done ++ [(key, value)]) hv.2
      (hsplit ▸ hsorted) (by omega)
    rw [treeMembers, Tree.members?, insertMember_last value hlast, hmembers, hsplit]
    exact hvalue

end

mutual

/-- A tree nested too deep denotes nothing. -/
theorem value_tree_deep : ∀ (v : Json) (depth : Nat), depth < v.nesting →
    Tree.value? depth v.tree = none
  | null, _, h | bool _, _, h | number _, _, h | string _, _, h => by
    simp [nesting] at h
  | array items, 0, _ => by rw [tree, Tree.value?]
  | array items, depth + 1, h => by
    rw [nesting] at h
    rw [tree, Tree.value?, values_treeItems_deep items depth [] (by omega)]
    rfl
  | object members, 0, _ => by rw [tree, Tree.value?]
  | object members, depth + 1, h => by
    rw [nesting] at h
    rw [tree, Tree.value?, members_treeMembers_deep members depth [] (by omega)]
    rfl

theorem values_treeItems_deep : ∀ (items : List Json) (depth : Nat) (done : List Json),
    depth < nestingItems items → Tree.values? depth done (treeItems items) = none
  | [], _, _, h => by simp [nestingItems] at h
  | item :: items, depth, done, h => by
    rw [nestingItems, lt_max_iff] at h
    rw [treeItems, Tree.values?]
    rcases h with h | h
    · rw [value_tree_deep item depth h]
    · split
      · rfl
      · exact values_treeItems_deep items depth _ h

theorem members_treeMembers_deep : ∀ (members : List (String × Json)) (depth : Nat)
    (done : List (String × Json)), depth < nestingMembers members →
    Tree.members? depth done (treeMembers members) = none
  | [], _, _, h => by simp [nestingMembers] at h
  | (key, value) :: members, depth, done, h => by
    rw [nestingMembers, lt_max_iff] at h
    rw [treeMembers]
    unfold Tree.members?
    split
    · rename_i k v hk hv
      rcases h with h | h
      · rw [value_tree_deep value depth h] at hv
        cases hv
      · exact members_treeMembers_deep members depth _ h
    · rfl

end

/-- What the compact form and the signed form say is read back. -/
theorem parse_spell {escape : Char → List Char} (h : ∀ c, ReadBack escape c) {v : Json}
    {text : String} (htext : text.toList = spell escape v) (hv : v.Faithful)
    (hdepth : v.nesting ≤ Tree.nestingLimit) : Json.parse? text = some v := by
  rw [Json.parse?, Tree.parse?, htext, ofChars_spell h, Option.bind_some]
  exact value_tree v _ hv hdepth

theorem readBack_compact (c : Char) : ReadBack compactEscape c := by
  intro text rest
  unfold compactEscape
  cases hs : shortEscape? c with
  | some cs => exact readBack_short hs text rest
  | none =>
    dsimp only
    split
    · exact readBack_units c text rest
    · exact readBack_plain hs ‹_› text rest

theorem toList_compact (v : Json) : v.compact.toList = spell compactEscape v := by
  rw [compact, toList_write]
  rfl

theorem toList_quoted (s : String) : (quoted s).toList = spellString compactEscape s := by
  rw [quoted, toList_writeString]
  rfl

end Json

end FleetControl
