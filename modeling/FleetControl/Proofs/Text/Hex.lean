import FleetControl.Text.Hex

/-! # Reading hexadecimal digits back

Digits are read back as the values that they were written for, so different values have different
texts; and what is recognised as a digest is the text of the bytes that it is read as. -/
namespace FleetControl.Hex

theorem value_digitChar : ∀ n < 16, value? (Nat.digitChar n) = some n := by decide

theorem value_digit (n : Nat) : value? (digit n) = some (n % 16) :=
  value_digitChar _ (Nat.mod_lt _ (by decide))

theorem isLowerDigit_digit (n : Nat) : isLowerDigit (digit n) = true := by
  have h : ∀ n < 16, isLowerDigit (Nat.digitChar n) = true := by decide
  exact h _ (Nat.mod_lt _ (by decide))

theorem utf8Size_digit (n : Nat) : (digit n).utf8Size = 1 := by
  have h : ∀ n < 16, (Nat.digitChar n).utf8Size = 1 := by decide
  exact h _ (Nat.mod_lt _ (by decide))

theorem digit_inj {m n : Nat} (h : digit m = digit n) : m % 16 = n % 16 := by
  have hv := value_digit m
  rw [h, value_digit] at hv
  exact (Option.some.inj hv).symm

theorem ofByte_inj {a b : UInt8} (h : ofByte a = ofByte b) : a = b := by
  simp only [ofByte, List.cons.injEq, and_true] at h
  obtain ⟨high, low⟩ := h
  have high := digit_inj high
  have low := digit_inj low
  have ha := a.toNat_lt
  have hb := b.toNat_lt
  apply UInt8.toNat_inj.mp
  omega

theorem flatMap_ofByte_inj {as bs : List UInt8} (h : as.flatMap ofByte = bs.flatMap ofByte) :
    as = bs := by
  induction as generalizing bs with
  | nil =>
    cases bs with
    | nil => rfl
    | cons b bs => simp [ofByte] at h
  | cons a as ih =>
    cases bs with
    | nil => simp [ofByte] at h
    | cons b bs =>
      have hsplit : ofByte a = ofByte b ∧ as.flatMap ofByte = bs.flatMap ofByte :=
        List.append_inj h rfl
      rw [ofByte_inj hsplit.1, ih hsplit.2]

/-- A walk over the bytes from one of them on takes the rest of the list. -/
theorem foldlM_loop {β : Type} (f : β → UInt8 → β) (bytes : ByteArray) (i j : Nat) (b : β)
    (h : i + j = bytes.size) :
    ByteArray.foldlM.loop (m := Id) (fun b x => pure (f b x)) bytes bytes.size (Nat.le_refl _)
      i j b = (bytes.data.toList.drop j).foldl f b := by
  induction i generalizing j b with
  | zero =>
    have hj : bytes.data.toList.length ≤ j := by
      rw [Array.length_toList]
      exact Nat.le_of_eq (h.symm.trans (Nat.zero_add j))
    rw [List.drop_of_length_le hj]
    unfold ByteArray.foldlM.loop
    split <;> rfl
  | succ i ih =>
    have hj : j < bytes.data.toList.length := by
      rw [Array.length_toList]
      change j < bytes.size
      omega
    rw [List.drop_eq_getElem_cons hj, List.foldl_cons]
    unfold ByteArray.foldlM.loop
    rw [dif_pos (show j < bytes.size by omega)]
    exact ih (j + 1) _ (by omega)

theorem foldl_bytes {β : Type} (f : β → UInt8 → β) (bytes : ByteArray) (b : β) :
    bytes.foldl f b = bytes.data.toList.foldl f b := by
  have h := foldlM_loop f bytes bytes.size 0 b (Nat.add_zero _)
  rw [List.drop_zero] at h
  rw [← h]
  unfold ByteArray.foldl ByteArray.foldlM
  rw [dif_pos (Nat.le_refl _)]
  rfl

theorem toList_encode (bytes : ByteArray) :
    (encode bytes).toList = bytes.data.toList.flatMap ofByte := by
  have hfold : ∀ (bs : List UInt8) (out : String),
      (bs.foldl (fun text b => (text.push (digit (b.toNat / 16))).push (digit (b.toNat % 16)))
        out).toList = out.toList ++ bs.flatMap ofByte := by
    intro bs
    induction bs with
    | nil => simp
    | cons b bs ih =>
      intro out
      rw [List.foldl_cons, ih]
      simp [ofByte]
  rw [encode, foldl_bytes, hfold]
  rfl

/-- Different bytes have different texts. -/
theorem encode_inj {a b : ByteArray} (h : encode a = encode b) : a = b := by
  have hbytes : a.data.toList = b.data.toList := by
    apply flatMap_ofByte_inj
    rw [← toList_encode, ← toList_encode, h]
  exact ByteArray.ext (Array.toList_inj.mp hbytes)

theorem utf8ByteSize_encode (bytes : ByteArray) :
    (encode bytes).utf8ByteSize = 2 * bytes.size := by
  have hfold : ∀ (bs : List UInt8) (out : String),
      (bs.foldl (fun text b => (text.push (digit (b.toNat / 16))).push (digit (b.toNat % 16)))
        out).utf8ByteSize = out.utf8ByteSize + 2 * bs.length := by
    intro bs
    induction bs with
    | nil => simp
    | cons b bs ih =>
      intro out
      rw [List.foldl_cons, ih, String.utf8ByteSize_push, String.utf8ByteSize_push, utf8Size_digit,
        utf8Size_digit, List.length_cons]
      omega
  rw [encode, foldl_bytes, hfold, Array.length_toList]
  exact Nat.zero_add _

/-- The text of 32 bytes is recognised as that of a digest. -/
theorem isDigest_encode {bytes : ByteArray} (h : bytes.size = 32) :
    isDigest (encode bytes) = true := by
  have hdigits : ∀ c ∈ (encode bytes).toList, isLowerDigit c = true := by
    intro c hc
    rw [toList_encode] at hc
    obtain ⟨b, -, hb⟩ := List.mem_flatMap.mp hc
    simp only [ofByte, List.mem_cons, List.not_mem_nil, or_false] at hb
    rcases hb with rfl | rfl <;> exact isLowerDigit_digit _
  rw [isDigest, utf8ByteSize_encode, h, List.all_eq_true.mpr hdigits]
  rfl

/-- A lowercase digit is the digit of its value. -/
theorem digit_of_isLowerDigit {c : Char} (h : isLowerDigit c = true) :
    ∃ n < 16, c = digit n := by
  have hall : ∀ m < 103, isLowerDigit (Char.ofNat m) = true → ∃ n < 16, Char.ofNat m = digit n := by
    decide
  have hc : c.toNat < 103 := by
    simp only [isLowerDigit, Bool.or_eq_true, Bool.and_eq_true, decide_eq_true_eq] at h
    rcases h with ⟨-, h⟩ | ⟨-, h⟩
    · exact Nat.lt_of_le_of_lt (m := 57) h (by decide)
    · exact Nat.lt_of_le_of_lt (m := 102) h (by decide)
  rw [← Char.ofNat_toNat c] at h ⊢
  exact hall c.toNat hc h

theorem utf8ByteSize_of_digits {cs : List Char} (h : ∀ c ∈ cs, isLowerDigit c = true) :
    (String.ofList cs).utf8ByteSize = cs.length := by
  induction cs with
  | nil => rfl
  | cons c cs ih =>
    obtain ⟨n, -, rfl⟩ := digit_of_isLowerDigit (h c (List.mem_cons_self ..))
    rw [String.ofList_cons, String.utf8ByteSize_append, String.utf8ByteSize_singleton,
      utf8Size_digit, ih fun c hc => h c (List.mem_cons_of_mem _ hc), List.length_cons]
    omega

/-- Lowercase digits in pairs are written for bytes. -/
theorem exists_bytes : ∀ {cs : List Char}, (∀ c ∈ cs, isLowerDigit c = true) →
    cs.length % 2 = 0 → ∃ bs : List UInt8, cs = bs.flatMap ofByte
  | [], _, _ => ⟨[], rfl⟩
  | [_], _, heven => by cases heven
  | a :: b :: rest, hdigits, heven => by
    obtain ⟨x, hx, rfl⟩ := digit_of_isLowerDigit (hdigits a (by simp))
    obtain ⟨y, hy, rfl⟩ := digit_of_isLowerDigit (hdigits b (by simp))
    have hrest : ∀ c ∈ rest, isLowerDigit c = true := fun c hc => hdigits c (by simp [hc])
    rw [List.length_cons, List.length_cons] at heven
    obtain ⟨bs, rfl⟩ := exists_bytes hrest (by omega)
    have hbyte : (UInt8.ofNat (16 * x + y)).toNat = 16 * x + y := by
      rw [UInt8.toNat_ofNat']
      omega
    refine ⟨UInt8.ofNat (16 * x + y) :: bs, ?_⟩
    rw [List.flatMap_cons, ofByte, hbyte, show (16 * x + y) / 16 = x by omega,
      show (16 * x + y) % 16 = y by omega]
    rfl

/-- What is recognised as a digest is the text of bytes. -/
theorem encode_of_isDigest {text : String} (h : isDigest text = true) :
    ∃ bytes, text = encode bytes := by
  simp only [isDigest, Bool.and_eq_true, beq_iff_eq, List.all_eq_true] at h
  obtain ⟨hsize, hdigits⟩ := h
  rw [← String.ofList_toList (s := text), utf8ByteSize_of_digits hdigits] at hsize
  obtain ⟨bs, hbs⟩ := exists_bytes hdigits (by omega)
  refine ⟨⟨bs.toArray⟩, String.toList_inj.mp ?_⟩
  rw [toList_encode, hbs]

/-- The digits written for bytes are read as those bytes. -/
theorem decodeOnto_digits (bytes : ByteArray) (bs : List UInt8) :
    ∃ read, decodeOnto bytes (bs.flatMap ofByte) = some read ∧
      read.data.toList = bytes.data.toList ++ bs := by
  induction bs generalizing bytes with
  | nil => exact ⟨bytes, rfl, by simp⟩
  | cons b bs ih =>
    have hb := b.toNat_lt
    obtain ⟨read, hread, hbytes⟩ := ih (bytes.push b)
    refine ⟨read, ?_, by simpa using hbytes⟩
    have hvalue : 16 * (b.toNat / 16 % 16) + b.toNat % 16 % 16 = b.toNat := by omega
    simp only [List.flatMap_cons, ofByte, List.cons_append, List.nil_append, decodeOnto,
      value_digit, hvalue, UInt8.ofNat_toNat]
    exact hread

theorem decode_encode (bytes : ByteArray) : decode? (encode bytes) = some bytes := by
  obtain ⟨read, hread, hbytes⟩ := decodeOnto_digits ByteArray.empty bytes.data.toList
  rw [decode?, toList_encode, hread]
  exact congrArg some (ByteArray.ext (Array.toList_inj.mp hbytes))

end FleetControl.Hex
