import FleetControl.Proofs.Json.Reading
import FleetControl.Proofs.Text.ByteOrder
import FleetControl.Text.Blank

/-! # The canonical form of a value

Nothing but visible ASCII stands in it, and blanks only inside of strings. It is read back as the
value, and lists the keys of every object in the order of their bytes. What is read from any text
is in the order that the form relies on. -/
namespace FleetControl

namespace Json

/-! ## Characters -/

mutual

/-- The characters of a text that stand outside of its strings, with the quotes around those. -/
def outside : List Char → List Char
  | [] => []
  | c :: cs => c :: if c = '"' then inside cs else outside cs

/-- The same from within a string on; a backslash takes the next character with it. -/
def inside : List Char → List Char
  | [] => []
  | c :: cs =>
    if c = '\\' then escaped cs else if c = '"' then c :: outside cs else inside cs

def escaped : List Char → List Char
  | [] => []
  | _ :: cs => inside cs

end

/-- Visible ASCII that neither begins nor ends a string. -/
def Plain (c : Char) : Prop := 0x20 < c.toNat ∧ c.toNat < 0x80 ∧ c ≠ '"'

instance (c : Char) : Decidable (Plain c) := inferInstanceAs (Decidable (_ ∧ _ ∧ _))

/-- ASCII without controls, and without blanks outside of strings. -/
structure Clean (cs : List Char) : Prop where
  ascii : ∀ c ∈ cs, 0x20 ≤ c.toNat ∧ c.toNat < 0x80
  spare : ∀ c ∈ outside cs, Blank.isBlank c = false

theorem isBlank_of_ascii {c : Char} (hlow : 0x20 < c.toNat) (hhigh : c.toNat < 0x80) :
    Blank.isBlank c = false := by
  rw [Blank.isBlank, List.any_eq_false]
  simp only [Blank.ranges, List.forall_mem_cons, Bool.and_eq_true, decide_eq_true_eq]
  simp only [List.not_mem_nil, false_imp_iff, implies_true, and_true]
  omega

theorem clean_nil : Clean [] := ⟨nofun, nofun⟩

theorem Clean.cons {c : Char} {cs : List Char} (hc : Plain c) (h : Clean cs) :
    Clean (c :: cs) := by
  obtain ⟨hlow, hhigh, hquote⟩ := hc
  constructor
  · exact List.forall_mem_cons.mpr ⟨⟨Nat.le_of_lt hlow, hhigh⟩, h.ascii⟩
  · rw [outside, if_neg hquote]
    exact List.forall_mem_cons.mpr ⟨isBlank_of_ascii hlow hhigh, h.spare⟩

theorem Clean.append {front cs : List Char} (hfront : ∀ c ∈ front, Plain c) (h : Clean cs) :
    Clean (front ++ cs) := by
  induction front with
  | nil => exact h
  | cons c front ih =>
    obtain ⟨hc, hfront⟩ := List.forall_mem_cons.mp hfront
    exact (ih hfront).cons hc

theorem plain_of_numeral {c : Char} (h : isNumeral c = true) : Plain c := by
  simp only [isNumeral, Char.isDigit, Bool.or_eq_true, Bool.and_eq_true, decide_eq_true_eq,
    beq_iff_eq] at h
  rcases h with (((⟨hlow, hhigh⟩ | rfl) | rfl) | rfl) | rfl
  · have hlow : 48 ≤ c.toNat := hlow
    have hhigh : c.toNat ≤ 57 := hhigh
    refine ⟨by omega, by omega, ?_⟩
    rintro rfl
    revert hlow
    decide
  all_goals decide

/-! ## Strings -/

/-- What an escape leaves of a string: nothing that ends it, and nothing but ASCII. -/
structure Enclosed (cs : List Char) : Prop where
  ascii : ∀ c ∈ cs, 0x20 ≤ c.toNat ∧ c.toNat < 0x80
  within : ∀ rest, inside (cs ++ rest) = inside rest

theorem Enclosed.append {cs ds : List Char} (hc : Enclosed cs) (hd : Enclosed ds) :
    Enclosed (cs ++ ds) := by
  constructor
  · exact List.forall_mem_append.mpr ⟨hc.ascii, hd.ascii⟩
  · intro rest
    rw [List.append_assoc, hc.within, hd.within]

theorem enclosed_plain {c : Char} (hlow : 0x20 ≤ c.toNat) (hhigh : c.toNat < 0x80)
    (hquote : c ≠ '"') (hslash : c ≠ '\\') : Enclosed [c] := by
  constructor
  · simpa using ⟨hlow, hhigh⟩
  · intro rest
    rw [List.singleton_append, inside, if_neg hslash, if_neg hquote]

theorem enclosed_escaped {c : Char} (hlow : 0x20 ≤ c.toNat) (hhigh : c.toNat < 0x80) :
    Enclosed ['\\', c] := by
  constructor
  · simpa using ⟨hlow, hhigh⟩
  · intro rest
    rw [List.cons_append, List.singleton_append, inside, if_pos rfl, escaped]

theorem enclosed_digit (n : Nat) : Enclosed [Hex.digit n] := by
  have hall : ∀ m < 16, 0x20 ≤ (Nat.digitChar m).toNat ∧ (Nat.digitChar m).toNat < 0x80 ∧
      Nat.digitChar m ≠ '"' ∧ Nat.digitChar m ≠ '\\' := by decide
  obtain ⟨hlow, hhigh, hquote, hslash⟩ := hall (n % 16) (Nat.mod_lt n (by decide))
  exact enclosed_plain hlow hhigh hquote hslash

theorem enclosed_unitEscape (n : Nat) : Enclosed (unitEscape n) :=
  (enclosed_escaped (c := 'u') (by decide) (by decide)).append <|
    (enclosed_digit (n / 4096)).append <| (enclosed_digit (n / 256)).append <|
      (enclosed_digit (n / 16)).append (enclosed_digit n)

theorem enclosed_canonicalEscape (c : Char) : Enclosed (canonicalEscape c) := by
  unfold canonicalEscape
  cases hshort : shortEscape? c with
  | some cs =>
    unfold shortEscape? at hshort
    split_ifs at hshort <;> cases hshort <;> exact enclosed_escaped (by decide) (by decide)
  | none =>
    dsimp only
    split
    · unfold unitEscapes
      dsimp only
      split
      · exact enclosed_unitEscape _
      · exact (enclosed_unitEscape _).append (enclosed_unitEscape _)
    · have hquote : c ≠ '"' := by rintro rfl; cases hshort
      have hslash : c ≠ '\\' := by rintro rfl; cases hshort
      exact enclosed_plain (by omega) (by omega) hquote hslash

theorem enclosed_text (cs : List Char) : Enclosed (cs.flatMap canonicalEscape) := by
  induction cs with
  | nil => exact ⟨nofun, fun _ => rfl⟩
  | cons c cs ih => exact (enclosed_canonicalEscape c).append ih

theorem clean_string {cs : List Char} (h : Clean cs) (s : String) :
    Clean (spellString canonicalEscape s ++ cs) := by
  have htext := enclosed_text s.toList
  rw [spellString, List.cons_append, List.cons_append, List.append_assoc, List.singleton_append]
  constructor
  · exact List.forall_mem_cons.mpr ⟨by decide, List.forall_mem_append.mpr ⟨htext.ascii,
      List.forall_mem_cons.mpr ⟨by decide, h.ascii⟩⟩⟩
  · rw [outside, if_pos rfl, htext.within, inside, if_neg (by decide), if_pos rfl]
    exact List.forall_mem_cons.mpr ⟨by decide, List.forall_mem_cons.mpr ⟨by decide, h.spare⟩⟩

/-! ## Values -/

mutual

theorem clean_value {cs : List Char} (h : Clean cs) :
    ∀ v : Json, Clean (spell canonicalEscape v ++ cs)
  | null | bool true | bool false => h.append (by simp [spell, Plain])
  | number n => h.append fun _ hc => plain_of_numeral (isNumeral_of_mem_number hc)
  | string s => clean_string h s
  | array [] | object [] => h.append (by simp [spell, Plain])
  | array (item :: items) => by
    have hitems := clean_items (h.cons (c := ']') (by decide)) items
    have hitem := (clean_value hitems item).cons (c := '[') (by decide)
    simpa [spell] using hitem
  | object ((key, value) :: members) => by
    have hmembers := clean_members (h.cons (c := '\x7d') (by decide)) members
    have hvalue := (clean_value hmembers value).cons (c := ':') (by decide)
    have hkey := (clean_string hvalue key).cons (c := '\x7b') (by decide)
    simpa [spell] using hkey

theorem clean_items {cs : List Char} (h : Clean cs) :
    ∀ items : List Json, Clean (spellItems canonicalEscape items ++ cs)
  | [] => h
  | item :: items => by
    have hitem := (clean_value (clean_items h items) item).cons (c := ',') (by decide)
    simpa [spellItems] using hitem

theorem clean_members {cs : List Char} (h : Clean cs) :
    ∀ members : List (String × Json), Clean (spellMembers canonicalEscape members ++ cs)
  | [] => h
  | (key, value) :: members => by
    have hvalue := (clean_value (clean_members h members) value).cons (c := ':') (by decide)
    have hkey := (clean_string hvalue key).cons (c := ',') (by decide)
    simpa [spellMembers] using hkey

end

theorem clean_canonical (v : Json) : Clean v.canonical.toList := by
  rw [toList_canonical]
  simpa using clean_value clean_nil v

end Json

/-! ## Keys -/

namespace Tree

/-- Two members whose keys are texts, the bytes of the first before those of the second. -/
def KeyBefore (a b : Option String × Tree) : Prop :=
  ∃ k l, a.1 = some k ∧ b.1 = some l ∧ k.toUTF8.data.toList < l.toUTF8.data.toList

mutual

/-- A document lists the keys of every object in increasing order of their bytes. -/
def Ascending : Tree → Prop
  | array items => AscendingItems items
  | object members => members.Pairwise KeyBefore ∧ AscendingMembers members
  | _ => True

def AscendingItems : List Tree → Prop
  | [] => True
  | item :: items => Ascending item ∧ AscendingItems items

def AscendingMembers : List (Option String × Tree) → Prop
  | [] => True
  | (_, item) :: members => Ascending item ∧ AscendingMembers members

end

end Tree

namespace Json

theorem treeMembers_eq_map (members : List (String × Json)) :
    treeMembers members = members.map fun m => (some m.1, m.2.tree) := by
  induction members with
  | nil => rfl
  | cons m members ih => rw [treeMembers, ih, List.map_cons]

mutual

theorem ascending_tree : ∀ v : Json, v.Faithful → v.tree.Ascending
  | null, _ | bool _, _ | number _, _ | string _, _ => by simp [tree, Tree.Ascending]
  | array items, h => by
    rw [Faithful] at h
    rw [tree, Tree.Ascending]
    exact ascending_items items h
  | object members, h => by
    rw [Faithful] at h
    rw [tree, Tree.Ascending]
    refine ⟨?_, ascending_members members h.2⟩
    rw [treeMembers_eq_map, List.pairwise_map]
    exact h.1.imp fun hlt => ⟨_, _, rfl, rfl, Utf8.bytes_lt hlt⟩

theorem ascending_items : ∀ items : List Json, FaithfulItems items →
    Tree.AscendingItems (treeItems items)
  | [], _ => by simp [treeItems, Tree.AscendingItems]
  | item :: items, h => by
    rw [FaithfulItems] at h
    rw [treeItems, Tree.AscendingItems]
    exact ⟨ascending_tree item h.1, ascending_items items h.2⟩

theorem ascending_members : ∀ members : List (String × Json), FaithfulMembers members →
    Tree.AscendingMembers (treeMembers members)
  | [], _ => by simp [treeMembers, Tree.AscendingMembers]
  | (key, value) :: members, h => by
    rw [FaithfulMembers] at h
    rw [treeMembers, Tree.AscendingMembers]
    exact ⟨ascending_tree value h.1, ascending_members members h.2⟩

end

/-! ## Values that are read -/

mutual

/-- Every number is an integer that fits 64 bits, with or without a sign. -/
def Integral : Json → Prop
  | number (.int i) => -(2 ^ 63) ≤ i ∧ i < 2 ^ 64
  | number (.double _) => False
  | array items => IntegralItems items
  | object members => IntegralMembers members
  | _ => True

def IntegralItems : List Json → Prop
  | [] => True
  | item :: items => Integral item ∧ IntegralItems items

def IntegralMembers : List (String × Json) → Prop
  | [] => True
  | (_, value) :: members => Integral value ∧ IntegralMembers members

end

/-- A value within the nesting of its place, and faithful if its numbers are integers. -/
def Sound (depth : Nat) (v : Json) : Prop := v.nesting ≤ depth ∧ (v.Integral → v.Faithful)

theorem soundItems {depth : Nat} {items : List Json} (h : ∀ v ∈ items, Sound depth v) :
    nestingItems items ≤ depth ∧ (IntegralItems items → FaithfulItems items) := by
  induction items with
  | nil => simp [nestingItems, FaithfulItems]
  | cons item items ih =>
    obtain ⟨hitem, hitems⟩ := List.forall_mem_cons.mp h
    obtain ⟨hdepth, hfaithful⟩ := ih hitems
    rw [nestingItems, IntegralItems, FaithfulItems]
    exact ⟨max_le hitem.1 hdepth, fun hi => ⟨hitem.2 hi.1, hfaithful hi.2⟩⟩

theorem soundMembers {depth : Nat} {members : List (String × Json)}
    (h : ∀ m ∈ members, Sound depth m.2) :
    nestingMembers members ≤ depth ∧ (IntegralMembers members → FaithfulMembers members) := by
  induction members with
  | nil => simp [nestingMembers, FaithfulMembers]
  | cons m members ih =>
    obtain ⟨hm, hmembers⟩ := List.forall_mem_cons.mp h
    obtain ⟨hdepth, hfaithful⟩ := ih hmembers
    rw [nestingMembers, IntegralMembers, FaithfulMembers]
    exact ⟨max_le hm.1 hdepth, fun hi => ⟨hm.2 hi.1, hfaithful hi.2⟩⟩

theorem mem_insertMember {key : String} {value : Json} {members : List (String × Json)}
    {m : String × Json} (h : m ∈ insertMember key value members) :
    m = (key, value) ∨ m ∈ members := by
  induction members with
  | nil => exact Or.inl (List.mem_singleton.mp h)
  | cons other members ih =>
    rw [insertMember] at h
    split at h
    · exact (List.mem_cons.mp h).imp_right (List.mem_cons_of_mem other)
    · split at h
      · exact List.mem_cons.mp h
      · rcases List.mem_cons.mp h with rfl | h
        · exact Or.inr List.mem_cons_self
        · exact (ih h).imp_right (List.mem_cons_of_mem other)

/-- A member that is stored in order leaves the members in order. -/
theorem pairwise_insertMember {key : String} {value : Json} {members : List (String × Json)}
    (h : members.Pairwise fun a b => a.1 < b.1) :
    (insertMember key value members).Pairwise fun a b => a.1 < b.1 := by
  induction members with
  | nil => exact List.pairwise_singleton _ _
  | cons other members ih =>
    obtain ⟨hother, hmembers⟩ := List.pairwise_cons.mp h
    rw [insertMember]
    split
    · rename_i heq
      exact List.pairwise_cons.mpr ⟨fun m hm => heq ▸ hother m hm, hmembers⟩
    · rename_i hne
      split
      · rename_i hlt
        refine List.pairwise_cons.mpr ⟨?_, h⟩
        exact List.forall_mem_cons.mpr ⟨hlt, fun m hm => lt_trans hlt (hother m hm)⟩
      · rename_i hge
        refine List.pairwise_cons.mpr ⟨fun m hm => ?_, ih hmembers⟩
        rcases mem_insertMember hm with rfl | hm
        · exact lt_of_le_of_ne (not_lt.mp hge) (Ne.symm hne)
        · exact hother m hm

mutual

/-- What a document denotes is within the allowed nesting, and in order. -/
theorem sound_value : ∀ (t : Tree) (depth : Nat) (v : Json), Tree.value? depth t = some v →
    Sound depth v
  | .null, depth, v, h | .bool _, depth, v, h => by
    rw [Tree.value?] at h
    cases h
    simp [Sound, nesting, Faithful]
  | .number n, depth, v, h => by
    rw [Tree.value?] at h
    obtain ⟨m, -, rfl⟩ := Option.map_eq_some_iff.mp h
    refine ⟨by simp [nesting], fun hi => ?_⟩
    cases m with
    | int i => exact hi
    | double d => cases hi
  | .string s, depth, v, h => by
    rw [Tree.value?] at h
    obtain ⟨text, -, rfl⟩ := Option.map_eq_some_iff.mp h
    simp [Sound, nesting, Faithful]
  | .array items, 0, v, h | .object items, 0, v, h => by
    rw [Tree.value?] at h
    cases h
  | .array items, depth + 1, v, h => by
    rw [Tree.value?] at h
    obtain ⟨vs, hvs, rfl⟩ := Option.map_eq_some_iff.mp h
    obtain ⟨hdepth, hfaithful⟩ := soundItems (sound_values items depth [] vs hvs nofun)
    rw [Sound, nesting, Integral, Faithful]
    exact ⟨Nat.succ_le_succ hdepth, hfaithful⟩
  | .object parts, depth + 1, v, h => by
    rw [Tree.value?] at h
    obtain ⟨members, hmembers, rfl⟩ := Option.map_eq_some_iff.mp h
    obtain ⟨horder, hsound⟩ :=
      sound_members parts depth [] members hmembers List.Pairwise.nil nofun
    obtain ⟨hdepth, hfaithful⟩ := soundMembers hsound
    rw [Sound, nesting, Integral, Faithful]
    exact ⟨Nat.succ_le_succ hdepth, fun hi => ⟨horder, hfaithful hi⟩⟩

theorem sound_values : ∀ (items : List Tree) (depth : Nat) (done vs : List Json),
    Tree.values? depth done items = some vs → (∀ v ∈ done, Sound depth v) →
    ∀ v ∈ vs, Sound depth v
  | [], depth, done, vs, h, hdone => by
    rw [Tree.values?] at h
    cases h
    simpa using hdone
  | item :: items, depth, done, vs, h, hdone => by
    rw [Tree.values?] at h
    cases hitem : Tree.value? depth item with
    | none =>
      rw [hitem] at h
      cases h
    | some v =>
      rw [hitem] at h
      exact sound_values items depth (v :: done) vs h
        (List.forall_mem_cons.mpr ⟨sound_value item depth v hitem, hdone⟩)

theorem sound_members : ∀ (parts : List (Option String × Tree)) (depth : Nat)
    (done members : List (String × Json)), Tree.members? depth done parts = some members →
    (done.Pairwise fun a b => a.1 < b.1) → (∀ m ∈ done, Sound depth m.2) →
    (members.Pairwise fun a b => a.1 < b.1) ∧ ∀ m ∈ members, Sound depth m.2
  | [], depth, done, members, h, horder, hdone => by
    rw [Tree.members?] at h
    cases h
    exact ⟨horder, hdone⟩
  | (none, item) :: parts, depth, done, members, h, _, _ => by
    unfold Tree.members? at h
    cases h
  | (some key, item) :: parts, depth, done, members, h, horder, hdone => by
    cases hitem : Tree.value? depth item with
    | none =>
      simp only [Tree.members?, hitem] at h
      cases h
    | some v =>
      simp only [Tree.members?, hitem] at h
      refine sound_members parts depth _ members h (pairwise_insertMember horder) ?_
      intro m hm
      rcases mem_insertMember hm with rfl | hm
      · exact sound_value item depth v hitem
      · exact hdone m hm

end

/-- The canonical form of a value with exact numbers is ASCII without controls and without blanks
outside of strings, is read back as the value, and is a document that lists the keys of every
object in the order of their bytes. A value with integers that any text is read as is one of
these. -/
theorem canonical_faithful :
    (∀ v : Json, v.Faithful → v.nesting ≤ Tree.nestingLimit →
      (∀ c ∈ v.canonical.toList, 0x20 ≤ c.toNat ∧ c.toNat < 0x80) ∧
      (∀ c ∈ outside v.canonical.toList, Blank.isBlank c = false) ∧
      Json.parse? v.canonical = some v ∧
      ∃ document, Tree.parse? v.canonical = some document ∧ document.Ascending) ∧
    ∀ raw v, Json.parse? raw = some v → v.Integral →
      v.Faithful ∧ v.nesting ≤ Tree.nestingLimit := by
  constructor
  · intro v hfaithful hdepth
    have hclean := clean_canonical v
    refine ⟨hclean.ascii, hclean.spare, ?_, v.tree, ?_, ascending_tree v hfaithful⟩
    · exact parse_spell readBack_canonical (toList_canonical v) hfaithful hdepth
    · rw [Tree.parse?, toList_canonical, ofChars_spell readBack_canonical]
  · intro raw v hparse hintegral
    obtain ⟨t, -, hvalue⟩ := Option.bind_eq_some_iff.mp hparse
    obtain ⟨hdepth, hfaithful⟩ := sound_value t Tree.nestingLimit v hvalue
    exact ⟨hfaithful hintegral, hdepth⟩

/-- Keys whose 16-bit units are in another order than their bytes, and a string with blanks, a
control and a quote. -/
def keyed : Json :=
  .object [("\n", .int (-(2 ^ 63))), ("\uffff", .array [.string "\x00 \"\x7f", .int (2 ^ 64 - 1)]),
    ("😀", .object [])]

theorem integral_keyed : keyed.Integral := by
  simp only [keyed, Integral, IntegralMembers, IntegralItems, int, and_true]
  decide

theorem faithful_keyed : keyed.Faithful := by
  simp only [keyed, Faithful, FaithfulMembers, FaithfulItems, int, Number.Exact,
    List.Pairwise.nil, and_true]
  refine ⟨?_, by decide, trivial, by decide⟩
  simp only [List.pairwise_cons, List.forall_mem_cons, List.Pairwise.nil]
  decide

theorem canonical_faithful_keyed : keyed.nesting ≤ Tree.nestingLimit ∧
    Json.parse? keyed.canonical = some keyed ∧
    (∃ document, Tree.parse? keyed.canonical = some document ∧ document.Ascending) ∧
    keyed.Integral ∧ keyed.Faithful := by
  have hdepth : keyed.nesting ≤ Tree.nestingLimit := by
    simp [keyed, nesting, nestingMembers, nestingItems, int, Tree.nestingLimit]
  obtain ⟨-, -, hparse, hkeys⟩ := canonical_faithful.1 keyed faithful_keyed hdepth
  have hread := canonical_faithful.2 keyed.canonical keyed hparse integral_keyed
  exact ⟨hdepth, hparse, hkeys, integral_keyed, hread.1⟩

end Json

end FleetControl
