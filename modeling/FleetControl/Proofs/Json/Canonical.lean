import FleetControl.Proofs.Json.Strings
import Mathlib

/-! # The canonical form is unambiguous

Each written value tells by its first character what it is, and is read off the front of a text in
one way only; a number needs what follows it to be no part of a number. Hence two values have one
canonical form only if they are the same, up to doubles that are written alike. -/
namespace FleetControl

/-- The same integer, or doubles that are written alike. -/
def Number.Alike : Number → Number → Prop
  | .int i, .int j => i = j
  | .double d, .double e => Shortest.text d = Shortest.text e
  | _, _ => False

namespace Json

mutual

/-- The same value, up to doubles that are written alike. -/
def Alike : Json → Json → Prop
  | null, null => True
  | bool a, bool b => a = b
  | number m, number n => m.Alike n
  | string s, string t => s = t
  | array items, array others => AlikeItems items others
  | object members, object others => AlikeMembers members others
  | _, _ => False

def AlikeItems : List Json → List Json → Prop
  | [], [] => True
  | item :: items, other :: others => Alike item other ∧ AlikeItems items others
  | _, _ => False

def AlikeMembers : List (String × Json) → List (String × Json) → Prop
  | [], [] => True
  | (key, value) :: members, (other, value') :: others =>
    (key = other ∧ Alike value value') ∧ AlikeMembers members others
  | _, _ => False

end

end Json

/-! ## Numbers -/

/-- The characters of written numbers. -/
def isNumeral (c : Char) : Bool := c.isDigit || c == '-' || c == '+' || c == '.' || c == 'e'

/-- No part of a number follows. -/
def Ends (rest : List Char) : Prop := ∀ c ∈ rest.head?, isNumeral c = false

theorem ends_cons {c : Char} (h : isNumeral c = false) (rest : List Char) : Ends (c :: rest) := by
  intro d hd
  obtain rfl : c = d := by simpa using hd
  exact h

theorem ends_nil : Ends [] := by
  intro c hc
  simp at hc

theorem takeWhile_of_ends {rest : List Char} (h : Ends rest) : rest.takeWhile isNumeral = [] := by
  cases rest with
  | nil => rfl
  | cons c rest => simp [h c rfl]

/-- Numerals end where something else begins. -/
theorem numerals_unique {a b rest rest' : List Char} (ha : ∀ c ∈ a, isNumeral c = true)
    (hb : ∀ c ∈ b, isNumeral c = true) (hrest : Ends rest) (hrest' : Ends rest')
    (h : a ++ rest = b ++ rest') : a = b ∧ rest = rest' := by
  have hfront := congrArg (List.takeWhile isNumeral) h
  rw [List.takeWhile_append_of_pos ha, List.takeWhile_append_of_pos hb, takeWhile_of_ends hrest,
    takeWhile_of_ends hrest', List.append_nil, List.append_nil] at hfront
  subst hfront
  exact ⟨rfl, List.append_cancel_left h⟩

theorem isDigit_of_mem_repr {n : Nat} {c : Char} (h : c ∈ n.repr.toList) : c.isDigit = true := by
  rw [Nat.toList_repr] at h
  exact Nat.isDigit_of_mem_toDigits (by decide) (by decide) h

theorem repr_ne_nil (n : Nat) : n.repr.toList ≠ [] := by
  rw [Nat.toList_repr]
  exact Nat.toDigits_ne_nil

theorem mem_int_text {i : Int} {c : Char} (h : c ∈ (toString i).toList) :
    c.isDigit = true ∨ c = '-' := by
  rw [Int.toString_eq_repr, Int.repr_eq_if] at h
  split at h
  · exact Or.inl (isDigit_of_mem_repr h)
  · rw [String.toList_append] at h
    rcases List.mem_append.mp h with h | h
    · exact Or.inr (by simpa using h)
    · exact Or.inl (isDigit_of_mem_repr h)

theorem int_text_ne_nil (i : Int) : (toString i).toList ≠ [] := by
  rw [Int.toString_eq_repr, Int.repr_eq_if]
  split
  · exact repr_ne_nil _
  · simp

theorem isNumeral_of_isDigit {c : Char} (h : c.isDigit = true) : isNumeral c = true := by
  simp [isNumeral, h]

/-- Nothing but characters of written numbers. -/
def Numerals (cs : List Char) : Prop := ∀ c ∈ cs, isNumeral c = true

@[simp] theorem numerals_nil : Numerals [] := by simp [Numerals]

@[simp] theorem numerals_cons {c : Char} {cs : List Char} :
    Numerals (c :: cs) ↔ isNumeral c = true ∧ Numerals cs := List.forall_mem_cons

@[simp] theorem numerals_append {a b : List Char} :
    Numerals (a ++ b) ↔ Numerals a ∧ Numerals b := List.forall_mem_append

@[simp] theorem numerals_zeros (n : Nat) : Numerals (List.replicate n '0') := by
  intro c hc
  rw [List.eq_of_mem_replicate hc]
  rfl

@[simp] theorem numerals_digits (n : Nat) : Numerals (Nat.toDigits 10 n) := fun _ hc =>
  isNumeral_of_isDigit (Nat.isDigit_of_mem_toDigits (by decide) (by decide) hc)

theorem Numerals.take {cs : List Char} (h : Numerals cs) (n : Nat) : Numerals (cs.take n) :=
  fun c hc => h c (List.mem_of_mem_take hc)

theorem Numerals.drop {cs : List Char} (h : Numerals cs) (n : Nat) : Numerals (cs.drop n) :=
  fun c hc => h c (List.mem_of_mem_drop hc)

/-- What doubles are written with; integers have neither point nor exponent. -/
structure DoubleText (text : List Char) : Prop where
  numerals : Numerals text
  marked : '.' ∈ text ∨ 'e' ∈ text

theorem doubleText_layout (n : Nat) (k : Int) : DoubleText (Shortest.layout n k).toList := by
  have hdigits : Numerals (toString n).toList := by simp
  unfold Shortest.layout
  dsimp only
  generalize (toString n).toList = ds at hdigits
  split_ifs with hwhole hpoint hsmall
  · rw [String.toList_ofList]
    exact ⟨by simp [hdigits, isNumeral], Or.inl (by simp)⟩
  · rw [String.toList_ofList]
    exact ⟨by simp [hdigits.take, hdigits.drop, isNumeral], Or.inl (by simp)⟩
  · rw [String.toList_ofList]
    exact ⟨by simp [hdigits, isNumeral], Or.inl (by simp)⟩
  all_goals
    rw [String.toList_ofList]
    refine ⟨?_, Or.inr (by simp)⟩
    cases ds with
    | nil => simp [isNumeral]
    | cons d ds =>
      cases ds with
      | nil => simpa [isNumeral] using hdigits
      | cons d' ds => simpa [isNumeral] using hdigits

theorem doubleText_text (d : Double) : DoubleText (Shortest.text d).toList := by
  have hmagnitude : DoubleText (if d.isZero then "0.0" else
      Shortest.layout (Shortest.digits d).1 (Shortest.digits d).2).toList := by
    split
    · exact ⟨by simp [isNumeral], by simp⟩
    · exact doubleText_layout _ _
  unfold Shortest.text
  dsimp only
  split
  · rw [String.toList_append]
    exact ⟨by simp [hmagnitude.numerals, isNumeral],
      hmagnitude.marked.imp (List.mem_append_right _) (List.mem_append_right _)⟩
  · exact hmagnitude

theorem isNumeral_of_mem_number {n : Number} {c : Char}
    (h : c ∈ (Json.numberText n).toList) : isNumeral c = true := by
  cases n with
  | int i =>
    rcases mem_int_text h with h | rfl
    · exact isNumeral_of_isDigit h
    · rfl
  | double d => exact (doubleText_text d).numerals c h

theorem number_text_ne_nil (n : Number) : (Json.numberText n).toList ≠ [] := by
  cases n with
  | int i => exact int_text_ne_nil i
  | double d =>
    intro h
    have := (doubleText_text d).marked
    rw [show (Json.numberText (.double d)) = Shortest.text d from rfl] at h
    rw [h] at this
    simp at this

theorem int_text_ne_double_text (i : Int) (d : Double) : toString i ≠ Shortest.text d := by
  intro h
  have hmarked := (doubleText_text d).marked
  rw [← h] at hmarked
  rcases hmarked with hc | hc <;> rcases mem_int_text hc with hd | hd <;> revert hd <;> decide

theorem alike_of_numberText {m n : Number} (h : Json.numberText m = Json.numberText n) :
    m.Alike n := by
  cases m with
  | int i =>
    cases n with
    | int j => exact Int.repr_injective h
    | double d => exact absurd h (int_text_ne_double_text i d)
  | double d =>
    cases n with
    | int j => exact absurd h.symm (int_text_ne_double_text j d)
    | double e => exact h

namespace Json

/-! ## Written values as lists of characters -/

/-- The characters of a written string. -/
def spellString (escape : Char → List Char) (s : String) : List Char :=
  '"' :: s.toList.flatMap escape ++ ['"']

mutual

/-- The characters of the written form of a value. -/
def spell (escape : Char → List Char) : Json → List Char
  | null => ['n', 'u', 'l', 'l']
  | bool true => ['t', 'r', 'u', 'e']
  | bool false => ['f', 'a', 'l', 's', 'e']
  | number n => (numberText n).toList
  | string s => spellString escape s
  | array [] => ['[', ']']
  | array (item :: items) => '[' :: spell escape item ++ spellItems escape items ++ [']']
  | object [] => ['\x7b', '\x7d']
  | object ((key, value) :: members) =>
    '\x7b' :: spellString escape key ++ ':' :: spell escape value ++ spellMembers escape members ++
      ['\x7d']

def spellItems (escape : Char → List Char) : List Json → List Char
  | [] => []
  | item :: items => ',' :: spell escape item ++ spellItems escape items

def spellMembers (escape : Char → List Char) : List (String × Json) → List Char
  | [] => []
  | (key, value) :: members =>
    ',' :: spellString escape key ++ ':' :: spell escape value ++ spellMembers escape members

end

theorem toList_pushAll (out : String) (cs : List Char) :
    (pushAll out cs).toList = out.toList ++ cs := by
  unfold pushAll
  induction cs generalizing out with
  | nil => simp
  | cons c cs ih =>
    rw [List.foldl_cons, ih]
    simp

theorem toList_writeString (escape : Char → List Char) (out s : String) :
    (writeString escape out s).toList = out.toList ++ spellString escape s := by
  have hfold : ∀ (cs : List Char) (out : String),
      (cs.foldl (fun out c => pushAll out (escape c)) out).toList =
        out.toList ++ cs.flatMap escape := by
    intro cs
    induction cs with
    | nil => simp
    | cons c cs ih =>
      intro out
      rw [List.foldl_cons, ih, toList_pushAll]
      simp
  rw [writeString, String.toList_push, hfold]
  simp [spellString]

mutual

theorem toList_write (escape : Char → List Char) (out : String) :
    ∀ v : Json, (write escape out v).toList = out.toList ++ spell escape v
  | null => by simp [write, spell]
  | bool true => by simp [write, spell]
  | bool false => by simp [write, spell]
  | number n => by simp [write, spell]
  | string s => by rw [write, toList_writeString, spell]
  | array [] => by simp [write, spell]
  | array (item :: items) => by
    rw [write, String.toList_push, toList_writeItems escape _ items,
      toList_write escape _ item, spell]
    simp
  | object [] => by simp [write, spell]
  | object ((key, value) :: members) => by
    rw [write, String.toList_push, toList_writeMembers escape _ members,
      toList_write escape _ value, String.toList_push, toList_writeString, spell]
    simp

theorem toList_writeItems (escape : Char → List Char) (out : String) :
    ∀ items : List Json, (writeItems escape out items).toList =
      out.toList ++ spellItems escape items
  | [] => by simp [writeItems, spellItems]
  | item :: items => by
    rw [writeItems, toList_writeItems escape _ items, toList_write escape _ item, spellItems]
    simp

theorem toList_writeMembers (escape : Char → List Char) (out : String) :
    ∀ members : List (String × Json), (writeMembers escape out members).toList =
      out.toList ++ spellMembers escape members
  | [] => by simp [writeMembers, spellMembers]
  | (key, value) :: members => by
    rw [writeMembers, toList_writeMembers escape _ members, toList_write escape _ value,
      String.toList_push, toList_writeString, spellMembers]
    simp

end

theorem toList_canonical (v : Json) : v.canonical.toList = spell canonicalEscape v := by
  rw [canonical, toList_write]
  rfl

/-! ## Reading values off the front -/

/-- What a value is, as its first character tells. -/
def kind : Json → Nat
  | null => 0
  | bool _ => 1
  | number _ => 2
  | string _ => 3
  | array _ => 4
  | object _ => 5

def kindOf (c : Char) : Nat :=
  if c = 'n' then 0 else if c = 't' ∨ c = 'f' then 1 else if c = '"' then 3
  else if c = '[' then 4 else if c = '\x7b' then 5 else 2

theorem kindOf_numeral {c : Char} (h : isNumeral c = true) : kindOf c = 2 := by
  have hn : ∀ d, isNumeral d = false → c ≠ d := by
    rintro d hd rfl
    rw [h] at hd
    cases hd
  have htruth : ¬ (c = 't' ∨ c = 'f') := not_or.mpr ⟨hn 't' rfl, hn 'f' rfl⟩
  simp only [kindOf, if_neg (hn 'n' rfl), if_neg htruth, if_neg (hn '"' rfl), if_neg (hn '[' rfl),
    if_neg (hn '\x7b' rfl)]

theorem spell_first (escape : Char → List Char) (v : Json) :
    ∃ c rest, spell escape v = c :: rest ∧ kindOf c = kind v := by
  cases v with
  | null => exact ⟨_, _, rfl, rfl⟩
  | bool b => cases b <;> exact ⟨_, _, rfl, rfl⟩
  | number n =>
    obtain ⟨c, rest, h⟩ := List.exists_cons_of_ne_nil (number_text_ne_nil n)
    exact ⟨c, rest, h, kindOf_numeral (isNumeral_of_mem_number (n := n) (by simp [h]))⟩
  | string s => exact ⟨_, _, rfl, rfl⟩
  | array items => cases items <;> exact ⟨_, _, rfl, rfl⟩
  | object members => cases members <;> exact ⟨_, _, rfl, rfl⟩

theorem kind_of_spell {escape : Char → List Char} {v w : Json} {rest rest' : List Char}
    (h : spell escape v ++ rest = spell escape w ++ rest') : kind v = kind w := by
  obtain ⟨c, cs, hv, hc⟩ := spell_first escape v
  obtain ⟨d, ds, hw, hd⟩ := spell_first escape w
  rw [hv, hw] at h
  rw [← hc, ← hd, (List.cons.inj h).1]

theorem spell_ne_close {escape : Char → List Char} {v : Json} {rest rest' : List Char}
    {c : Char} (hc : kindOf c = 2) (hn : isNumeral c = false) :
    spell escape v ++ rest ≠ c :: rest' := by
  intro h
  obtain ⟨d, ds, hv, hd⟩ := spell_first escape v
  have hfirst := h
  rw [hv, List.cons_append] at hfirst
  obtain rfl : d = c := (List.cons.inj hfirst).1
  have hk : kind v = 2 := hd.symm.trans hc
  cases v with
  | number n =>
    have hmem : d ∈ (numberText n).toList := by
      rw [show (numberText n).toList = spell escape (number n) from rfl, hv]
      simp
    rw [isNumeral_of_mem_number hmem] at hn
    cases hn
  | bool b => cases hk
  | null => cases hk
  | string s => cases hk
  | array items => cases hk
  | object members => cases hk

theorem spellString_unique {escape : Char → List Char} (h : ∀ c, ReadBack escape c)
    {s t : String} {rest rest' : List Char}
    (he : spellString escape s ++ rest = spellString escape t ++ rest') : s = t ∧ rest = rest' := by
  simp only [spellString, List.cons_append, List.append_assoc, List.nil_append, List.cons.injEq,
    true_and] at he
  obtain ⟨htext, hrest⟩ := string_unique h he
  exact ⟨String.toList_inj.mp htext, hrest⟩

/-- What follows a value inside an array or an object. -/
theorem ends_spellItems (escape : Char → List Char) (items : List Json) (rest : List Char) :
    Ends (spellItems escape items ++ ']' :: rest) := by
  cases items with
  | nil => exact ends_cons rfl _
  | cons item items => exact ends_cons rfl _

theorem ends_spellMembers (escape : Char → List Char) (members : List (String × Json))
    (rest : List Char) : Ends (spellMembers escape members ++ '\x7d' :: rest) := by
  cases members with
  | nil => exact ends_cons rfl _
  | cons member members => exact ends_cons rfl _

theorem eq_of_kind {v w : Json} (h : kind v = kind w) :
    match v with
    | null => w = null
    | bool _ => ∃ b, w = bool b
    | number _ => ∃ n, w = number n
    | string _ => ∃ s, w = string s
    | array _ => ∃ items, w = array items
    | object _ => ∃ members, w = object members := by
  cases v <;> cases w <;> simp [kind] at h ⊢

mutual

/-- A written value is read off the front of a text in one way only. -/
theorem spell_unique {escape : Char → List Char} (h : ∀ c, ReadBack escape c) :
    ∀ (v w : Json) (rest rest' : List Char), Ends rest → Ends rest' →
      spell escape v ++ rest = spell escape w ++ rest' → Alike v w ∧ rest = rest'
  | null, w, rest, rest', _, _, he => by
    have hw : w = null := eq_of_kind (kind_of_spell he)
    subst hw
    exact ⟨trivial, List.append_cancel_left he⟩
  | bool a, w, rest, rest', _, _, he => by
    obtain ⟨b, rfl⟩ := eq_of_kind (kind_of_spell he)
    cases a <;> cases b <;> simp_all [spell, Alike]
  | number m, w, rest, rest', hrest, hrest', he => by
    obtain ⟨n, rfl⟩ := eq_of_kind (kind_of_spell he)
    simp only [spell] at he
    -- a number has no end of its own: what follows it is none of its characters
    obtain ⟨htext, hr⟩ := numerals_unique (fun _ => isNumeral_of_mem_number)
      (fun _ => isNumeral_of_mem_number) hrest hrest' he
    exact ⟨alike_of_numberText (String.toList_inj.mp htext), hr⟩
  | string s, w, rest, rest', _, _, he => by
    obtain ⟨t, rfl⟩ := eq_of_kind (kind_of_spell he)
    simp only [spell] at he
    exact spellString_unique h he
  | array [], w, rest, rest', _, _, he => by
    obtain ⟨others, rfl⟩ := eq_of_kind (kind_of_spell he)
    cases others with
    | nil => exact ⟨trivial, List.append_cancel_left he⟩
    | cons other others =>
      simp only [spell, List.cons_append, List.append_assoc, List.nil_append, List.cons.injEq,
        true_and] at he
      -- no value begins as the array ends
      exact absurd he.symm (spell_ne_close rfl rfl)
  | array (item :: items), w, rest, rest', _, _, he => by
    obtain ⟨others, rfl⟩ := eq_of_kind (kind_of_spell he)
    cases others with
    | nil =>
      simp only [spell, List.cons_append, List.append_assoc, List.nil_append, List.cons.injEq,
        true_and] at he
      exact absurd he (spell_ne_close rfl rfl)
    | cons other others =>
      simp only [spell, List.cons_append, List.append_assoc, List.nil_append, List.cons.injEq,
        true_and] at he
      obtain ⟨hitem, hr⟩ := spell_unique h item other _ _ (ends_spellItems _ items rest)
        (ends_spellItems _ others rest') he
      obtain ⟨hitems, hr⟩ := spellItems_unique h items others rest rest' hr
      exact ⟨⟨hitem, hitems⟩, hr⟩
  | object [], w, rest, rest', _, _, he => by
    obtain ⟨others, rfl⟩ := eq_of_kind (kind_of_spell he)
    cases others with
    | nil => exact ⟨trivial, List.append_cancel_left he⟩
    | cons other others => simp [spell, spellString] at he
  | object ((key, value) :: members), w, rest, rest', _, _, he => by
    obtain ⟨others, rfl⟩ := eq_of_kind (kind_of_spell he)
    cases others with
    | nil => simp [spell, spellString] at he
    | cons other others =>
      simp only [spell, List.cons_append, List.append_assoc, List.nil_append, List.cons.injEq,
        true_and] at he
      obtain ⟨hkey, hr⟩ := spellString_unique h he
      obtain ⟨hvalue, hr⟩ := spell_unique h value other.2 _ _ (ends_spellMembers _ members rest)
        (ends_spellMembers _ others rest') (List.cons.inj hr).2
      obtain ⟨hmembers, hr⟩ := spellMembers_unique h members others rest rest' hr
      exact ⟨⟨⟨hkey, hvalue⟩, hmembers⟩, hr⟩

theorem spellItems_unique {escape : Char → List Char} (h : ∀ c, ReadBack escape c) :
    ∀ (items others : List Json) (rest rest' : List Char),
      spellItems escape items ++ ']' :: rest = spellItems escape others ++ ']' :: rest' →
      AlikeItems items others ∧ rest = rest'
  | [], [], rest, rest', he => ⟨trivial, (List.cons.inj he).2⟩
  | [], other :: others, rest, rest', he => by simp [spellItems] at he
  | item :: items, [], rest, rest', he => by simp [spellItems] at he
  | item :: items, other :: others, rest, rest', he => by
    simp only [spellItems, List.cons_append, List.append_assoc, List.cons.injEq, true_and] at he
    obtain ⟨hitem, hr⟩ := spell_unique h item other _ _ (ends_spellItems _ items rest)
      (ends_spellItems _ others rest') he
    obtain ⟨hitems, hr⟩ := spellItems_unique h items others rest rest' hr
    exact ⟨⟨hitem, hitems⟩, hr⟩

theorem spellMembers_unique {escape : Char → List Char} (h : ∀ c, ReadBack escape c) :
    ∀ (members others : List (String × Json)) (rest rest' : List Char),
      spellMembers escape members ++ '\x7d' :: rest =
        spellMembers escape others ++ '\x7d' :: rest' →
      AlikeMembers members others ∧ rest = rest'
  | [], [], rest, rest', he => ⟨trivial, (List.cons.inj he).2⟩
  | [], other :: others, rest, rest', he => by simp [spellMembers] at he
  | member :: members, [], rest, rest', he => by simp [spellMembers] at he
  | (key, value) :: members, (other, value') :: others, rest, rest', he => by
    simp only [spellMembers, List.cons_append, List.append_assoc, List.cons.injEq, true_and] at he
    obtain ⟨hkey, hr⟩ := spellString_unique h he
    obtain ⟨hvalue, hr⟩ := spell_unique h value value' _ _ (ends_spellMembers _ members rest)
      (ends_spellMembers _ others rest') (List.cons.inj hr).2
    obtain ⟨hmembers, hr⟩ := spellMembers_unique h members others rest rest' hr
    exact ⟨⟨⟨hkey, hvalue⟩, hmembers⟩, hr⟩

end

/-- Values of one canonical form are alike. -/
theorem alike_of_canonical {v w : Json} (h : v.canonical = w.canonical) : Alike v w := by
  have hlist := congrArg String.toList h
  rw [toList_canonical, toList_canonical] at hlist
  exact (spell_unique readBack_canonical v w [] [] ends_nil ends_nil (by simpa using hlist)).1

theorem numberText_of_alike {m n : Number} (h : m.Alike n) : numberText m = numberText n := by
  cases m <;> cases n <;> simp_all [Number.Alike, numberText]

mutual

theorem spell_of_alike (escape : Char → List Char) :
    ∀ v w : Json, Alike v w → spell escape v = spell escape w
  | null, w, h => by cases w <;> simp_all [Alike]
  | bool a, w, h => by cases w <;> simp_all [Alike]
  | number m, w, h => by
    cases w with
    | number n => simp only [spell, numberText_of_alike h]
    | _ => cases h
  | string s, w, h => by cases w <;> simp_all [Alike]
  | array [], w, h => by
    cases w with
    | array others => cases others <;> simp_all [Alike, AlikeItems]
    | _ => cases h
  | array (item :: items), w, h => by
    cases w with
    | array others =>
      cases others with
      | nil => cases h
      | cons other others =>
        rw [spell, spell, spell_of_alike escape item other h.1,
          spellItems_of_alike escape items others h.2]
    | _ => cases h
  | object [], w, h => by
    cases w with
    | object others => cases others <;> simp_all [Alike, AlikeMembers]
    | _ => cases h
  | object ((key, value) :: members), w, h => by
    cases w with
    | object others =>
      cases others with
      | nil => cases h
      | cons other others =>
        obtain ⟨⟨hkey, hvalue⟩, hmembers⟩ := h
        rw [spell, spell, hkey, spell_of_alike escape value other.2 hvalue,
          spellMembers_of_alike escape members others hmembers]
    | _ => cases h

theorem spellItems_of_alike (escape : Char → List Char) :
    ∀ items others : List Json, AlikeItems items others →
      spellItems escape items = spellItems escape others
  | [], [], _ => rfl
  | [], other :: others, h => by cases h
  | item :: items, [], h => by cases h
  | item :: items, other :: others, h => by
    rw [spellItems, spellItems, spell_of_alike escape item other h.1,
      spellItems_of_alike escape items others h.2]

theorem spellMembers_of_alike (escape : Char → List Char) :
    ∀ members others : List (String × Json), AlikeMembers members others →
      spellMembers escape members = spellMembers escape others
  | [], [], _ => rfl
  | [], other :: others, h => by cases h
  | member :: members, [], h => by cases h
  | (key, value) :: members, (other, value') :: others, h => by
    obtain ⟨⟨hkey, hvalue⟩, hmembers⟩ := h
    rw [spellMembers, spellMembers, hkey, spell_of_alike escape value value' hvalue,
      spellMembers_of_alike escape members others hmembers]

end

theorem canonical_eq_iff {v w : Json} : v.canonical = w.canonical ↔ Alike v w := by
  refine ⟨alike_of_canonical, fun h => String.toList_inj.mp ?_⟩
  rw [toList_canonical, toList_canonical, spell_of_alike canonicalEscape v w h]

end Json

end FleetControl
