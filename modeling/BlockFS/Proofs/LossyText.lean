import BlockFS.Proofs.StoredNames
import BlockFS.Text.Lossy

/-!
# What lenient reading makes of UTF-8

Reading the bytes of a text gives the text again.  Where the bytes end inside a character, its first
bytes become one replacement character behind the characters that are whole.
-/

namespace BlockFS.Text

/-- The bytes of some characters. -/
def bytesOf (cs : List Char) : List UInt8 := cs.flatMap String.utf8EncodeChar

theorem toList_toUTF8 (s : String) : s.toUTF8.toList = bytesOf s.toList := by
  have hbytes : s.toUTF8 = s.toList.utf8Encode := by
    rw [String.toUTF8, ← String.toByteArray_ofList, String.ofList_toList]
  rw [toList_eq_data_toList, hbytes, List.utf8Encode, List.data_toByteArray]
  rfl

/-! ## One character -/

section readTails

variable {low high : UInt8} {bits code : Nat} {tails : List UInt8}

/-- Bytes that follow a first byte and complete it do so whatever comes behind them. -/
theorem readTails_append
    (h : readTails tails.length low high bits tails = (some code, tails.length))
    (rest : List UInt8) :
    readTails tails.length low high bits (tails ++ rest) = (some code, tails.length) := by
  induction tails generalizing low high bits with
  | nil => exact h
  | cons b tails ih =>
    simp only [List.cons_append, List.length_cons, readTails] at h ⊢
    split
    · next hb =>
      simp only [if_pos hb, Prod.mk.injEq, Nat.add_right_cancel_iff] at h
      rw [ih (Prod.ext h.1 h.2)]
    · next hb => simp [if_neg hb] at h

/-- Where some of them are missing, those that are there are used up. -/
theorem readTails_take
    (h : readTails tails.length low high bits tails = (some code, tails.length))
    {n : Nat} (hn : n < tails.length) :
    readTails tails.length low high bits (tails.take n) = (none, n) := by
  induction tails generalizing low high bits n with
  | nil => exact absurd hn (Nat.not_lt_zero n)
  | cons b tails ih =>
    cases n with
    | zero => rfl
    | succ n =>
      simp only [List.take_succ_cons, List.length_cons, readTails] at h ⊢
      split
      · next hb =>
        simp only [if_pos hb, Prod.mk.injEq, Nat.add_right_cancel_iff] at h
        rw [ih (Prod.ext h.1 h.2) (Nat.lt_of_succ_lt_succ hn)]
      · next hb => simp [if_neg hb] at h

end readTails

theorem toNat_ofNat {n : Nat} (hn : n < 256) : (UInt8.ofNat n).toNat = n :=
  UInt8.toNat_ofNat_of_lt' hn

/-- The promise of a first byte, told by its number. -/
theorem ofByte?_ofNat {n : Nat} (hn : n < 256) : Lead.ofByte? (.ofNat n) =
    if n < 0x80 then some ⟨0, 0x80, 0xBF, n⟩
    else if n < 0xC2 then none
    else if n < 0xE0 then some ⟨1, 0x80, 0xBF, n - 0xC0⟩
    else if n < 0xF0 then
      some ⟨2, if n = 0xE0 then 0xA0 else 0x80, if n = 0xED then 0x9F else 0xBF, n - 0xE0⟩
    else if n < 0xF5 then
      some ⟨3, if n = 0xF0 then 0x90 else 0x80, if n = 0xF4 then 0x8F else 0xBF, n - 0xF0⟩
    else none := by
  simp only [Lead.ofByte?, UInt8.lt_iff_toNat_lt, ← UInt8.toNat_inj, toNat_ofNat hn,
    UInt8.reduceToNat]

theorem ofByte?_three {x : Nat} (hx : x < 16) : Lead.ofByte? (.ofNat (x + 0xE0)) =
    some ⟨2, if x = 0 then 0xA0 else 0x80, if x = 13 then 0x9F else 0xBF, x⟩ := by
  have hlow : (x + 0xE0 = 0xE0) ↔ x = 0 := by omega
  have hhigh : (x + 0xE0 = 0xED) ↔ x = 13 := by omega
  rw [ofByte?_ofNat (by omega), if_neg (by omega), if_neg (by omega), if_neg (by omega),
    if_pos (by omega), Nat.add_sub_cancel]
  simp only [hlow, hhigh]

theorem ofByte?_four {x : Nat} (hx : x < 5) : Lead.ofByte? (.ofNat (x + 0xF0)) =
    some ⟨3, if x = 0 then 0x90 else 0x80, if x = 4 then 0x8F else 0xBF, x⟩ := by
  have hlow : (x + 0xF0 = 0xF0) ↔ x = 0 := by omega
  have hhigh : (x + 0xF0 = 0xF4) ↔ x = 4 := by omega
  rw [ofByte?_ofNat (by omega), if_neg (by omega), if_neg (by omega), if_neg (by omega),
    if_neg (by omega), if_pos (by omega), Nat.add_sub_cancel]
  simp only [hlow, hhigh]

/-- A byte with six bits of a character follows a first byte that allows it. -/
theorem readTails_cons {low high : UInt8} {k bits m code used : Nat} {rest : List UInt8}
    (hm : m < 64) (hlow : low.toNat ≤ m + 0x80) (hhigh : m + 0x80 ≤ high.toNat)
    (hrest : readTails k 0x80 0xBF (bits * 64 + m) rest = (some code, used)) :
    readTails (k + 1) low high bits (UInt8.ofNat (m + 0x80) :: rest) = (some code, used + 1) := by
  have hbyte : (UInt8.ofNat (m + 0x80)).toNat = m + 0x80 := toNat_ofNat (by omega)
  have hb : low ≤ .ofNat (m + 0x80) ∧ .ofNat (m + 0x80) ≤ high := by
    rw [UInt8.le_iff_toNat_le, UInt8.le_iff_toNat_le, hbyte]
    exact ⟨hlow, hhigh⟩
  have hbits : (UInt8.ofNat (m + 0x80)).toNat - 0x80 = m := by
    rw [hbyte, Nat.add_sub_cancel]
  rw [readTails, if_pos hb, hbits, hrest]

/-- The last bytes of a character hold six bits of it each. -/
theorem readTails_mid {k bits m code used : Nat} {rest : List UInt8} (hm : m < 64)
    (hrest : readTails k 0x80 0xBF (bits * 64 + m) rest = (some code, used)) :
    readTails (k + 1) 0x80 0xBF bits (UInt8.ofNat (m + 0x80) :: rest) = (some code, used + 1) :=
  readTails_cons hm (Nat.le_add_left _ _) (by simp only [UInt8.reduceToNat]; omega) hrest

/-- The first byte of a character promises what follows it. -/
theorem exists_lead (c : Char) : ∃ b tails lead, String.utf8EncodeChar c = b :: tails ∧
    Lead.ofByte? b = some lead ∧ lead.tails = tails.length ∧
    readTails tails.length lead.low lead.high lead.bits tails = (some c.toNat, tails.length) := by
  have hvalid : c.toNat < 0xD800 ∨ 0xDFFF < c.toNat ∧ c.toNat < 0x110000 := c.valid
  rw [String.utf8EncodeChar]
  generalize hv : c.val.toNat = v
  change c.toNat = v at hv
  rw [hv] at hvalid ⊢
  split
  · next h1 =>
    refine ⟨_, _, ⟨0, 0x80, 0xBF, v⟩, rfl, ?_, rfl, rfl⟩
    rw [ofByte?_ofNat (by omega), if_pos (by omega)]
  split
  · next h1 h2 =>
    have hbits : v / 64 % 0x20 + 0xc0 - 0xC0 = v / 64 := by omega
    have hcode : v / 64 * 64 + v % 0x40 = v := by omega
    refine ⟨_, _, ⟨1, 0x80, 0xBF, v / 64⟩, rfl, ?_, rfl, ?_⟩
    · rw [ofByte?_ofNat (by omega), if_neg (by omega), if_neg (by omega), if_pos (by omega), hbits]
    · apply readTails_mid (by omega)
      rw [hcode]
      rfl
  split
  · next h1 h2 h3 =>
    have hcode : (v / 4096 % 0x10 * 64 + v / 64 % 0x40) * 64 + v % 0x40 = v := by omega
    refine ⟨_, _, _, rfl, ofByte?_three (Nat.mod_lt _ (by decide)), rfl, ?_⟩
    apply readTails_cons (by omega)
    · rw [apply_ite UInt8.toNat]
      simp only [UInt8.reduceToNat]
      split
      · omega
      · omega
    · rw [apply_ite UInt8.toNat]
      simp only [UInt8.reduceToNat]
      split
      · omega
      · omega
    · apply readTails_mid (by omega)
      rw [hcode]
      rfl
  · next h1 h2 h3 =>
    have hcode : ((v / 262144 % 0x08 * 64 + v / 4096 % 0x40) * 64 + v / 64 % 0x40) * 64 + v % 0x40
        = v := by omega
    refine ⟨_, _, _, rfl, ofByte?_four (by omega), rfl, ?_⟩
    apply readTails_cons (by omega)
    · rw [apply_ite UInt8.toNat]
      simp only [UInt8.reduceToNat]
      split
      · omega
      · omega
    · rw [apply_ite UInt8.toNat]
      simp only [UInt8.reduceToNat]
      split
      · omega
      · omega
    · apply readTails_mid (by omega)
      apply readTails_mid (by omega)
      rw [hcode]
      rfl

theorem decodeFrom_append_skip (xs rest : List UInt8) :
    decodeFrom xs.length (xs ++ rest) = decodeFrom 0 rest := by
  induction xs with
  | nil => rfl
  | cons x xs ih =>
    rw [List.length_cons, List.cons_append, decodeFrom]
    exact ih

/-- A whole character is read as itself. -/
theorem decodeFrom_char (c : Char) (rest : List UInt8) :
    decodeFrom 0 (String.utf8EncodeChar c ++ rest) = c :: decodeFrom 0 rest := by
  obtain ⟨b, tails, lead, hbytes, hlead, hlength, htails⟩ := exists_lead c
  rw [hbytes, List.cons_append, decodeFrom, hlead]
  simp only [hlength, readTails_append htails rest, Option.map_some, Option.getD_some,
    Char.ofNat_toNat, decodeFrom_append_skip]

/-- A character of which bytes are missing is read as one replacement character. -/
theorem decodeFrom_broken (c : Char) {n : Nat} (hpos : 0 < n)
    (hn : n < (String.utf8EncodeChar c).length) :
    decodeFrom 0 ((String.utf8EncodeChar c).take n) = [replacement] := by
  obtain ⟨b, tails, lead, hbytes, hlead, hlength, htails⟩ := exists_lead c
  rw [hbytes] at hn ⊢
  obtain ⟨n, rfl⟩ := Nat.exists_eq_add_of_lt hpos
  simp only [Nat.zero_add, List.length_cons, Nat.add_lt_add_iff_right] at hn ⊢
  have hused : (tails.take n).length = n := List.length_take_of_le (Nat.le_of_lt hn)
  have hrest : decodeFrom n (tails.take n) = [] := by
    have hskip := decodeFrom_append_skip (tails.take n) []
    rwa [hused, List.append_nil, decodeFrom] at hskip
  rw [List.take_succ_cons, decodeFrom, hlead]
  simp only [hlength, readTails_take htails hn, Option.map_none, Option.getD_none, hrest]

/-! ## Texts -/

theorem decodeFrom_bytesOf_append (cs : List Char) (rest : List UInt8) :
    decodeFrom 0 (bytesOf cs ++ rest) = cs ++ decodeFrom 0 rest := by
  induction cs with
  | nil => rfl
  | cons c cs ih =>
    rw [bytesOf, List.flatMap_cons, List.append_assoc, decodeFrom_char, ← bytesOf, ih,
      List.cons_append]

/-- Reading the bytes of a text gives the text again. -/
theorem decodeLossy_toUTF8 (s : String) : decodeLossy s.toUTF8.toList = s := by
  have hread := decodeFrom_bytesOf_append s.toList []
  rw [List.append_nil, decodeFrom, List.append_nil] at hread
  rw [decodeLossy, toList_toUTF8, hread, String.ofList_toList]

/-- The first bytes of some characters are those of the first characters, and perhaps some but not
all bytes of the next one. -/
theorem exists_take_bytesOf (cs : List Char) (n : Nat) :
    ∃ front, front <+: cs ∧ ((bytesOf cs).take n = bytesOf front ∨
      ∃ c k, 0 < k ∧ k < (String.utf8EncodeChar c).length ∧
        (bytesOf cs).take n = bytesOf front ++ (String.utf8EncodeChar c).take k) := by
  induction cs generalizing n with
  | nil => exact ⟨[], List.prefix_rfl, .inl List.take_nil⟩
  | cons c cs ih =>
    have hcons (front : List Char) :
        bytesOf (c :: front) = String.utf8EncodeChar c ++ bytesOf front := List.flatMap_cons
    rw [hcons, List.take_append]
    rcases Nat.lt_or_ge n (String.utf8EncodeChar c).length with hlt | hge
    · refine ⟨[], List.nil_prefix, ?_⟩
      rw [Nat.sub_eq_zero_of_le (Nat.le_of_lt hlt), List.take_zero, List.append_nil]
      rcases Nat.eq_zero_or_pos n with rfl | hpos
      · exact .inl List.take_zero
      · exact .inr ⟨c, n, hpos, hlt, rfl⟩
    · obtain ⟨front, hfront, htake⟩ := ih (n - (String.utf8EncodeChar c).length)
      refine ⟨c :: front, (List.prefix_cons_inj c).mpr hfront, ?_⟩
      rw [List.take_of_length_le hge, hcons]
      rcases htake with htake | ⟨c', k, hpos, hk, htake⟩
      · exact .inl (by rw [htake])
      · exact .inr ⟨c', k, hpos, hk, by rw [htake, List.append_assoc]⟩

/-- Bytes that are the UTF-8 form of a text. -/
def IsText (bytes : List UInt8) : Prop := ∃ s : String, s.toUTF8.toList = bytes

/-- The first bytes of a text are read as its first characters, and one replacement character if the
bytes end inside a character. -/
theorem exists_decodeLossy_take (s : String) (n : Nat) :
    ∃ front : String, front.toList <+: s.toList ∧
      front.toUTF8.toList <+: s.toUTF8.toList.take n ∧
      (decodeLossy (s.toUTF8.toList.take n) = front ∧ IsText (s.toUTF8.toList.take n) ∨
        decodeLossy (s.toUTF8.toList.take n) = front.push replacement) := by
  obtain ⟨front, hfront, htake⟩ := exists_take_bytesOf s.toList n
  have hbytes : (String.ofList front).toUTF8.toList = bytesOf front := by
    rw [toList_toUTF8, String.toList_ofList]
  refine ⟨.ofList front, by rwa [String.toList_ofList], ?_, ?_⟩
  · rw [hbytes, toList_toUTF8]
    rcases htake with htake | ⟨c, k, -, -, htake⟩
    · exact htake ▸ List.prefix_rfl
    · exact htake ▸ List.prefix_append _ _
  · rw [toList_toUTF8]
    rcases htake with htake | ⟨c, k, hpos, hk, htake⟩
    · rw [htake, ← hbytes]
      exact .inl ⟨decodeLossy_toUTF8 _, _, rfl⟩
    · right
      rw [htake, decodeLossy, decodeFrom_bytesOf_append, decodeFrom_broken c hpos hk]
      exact String.toList_inj.mp (by rw [String.toList_push, String.toList_ofList,
        String.toList_ofList])

end BlockFS.Text
