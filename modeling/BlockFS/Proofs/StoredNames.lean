import BlockFS.Name

/-!
# Names and their stored forms

A stored name is the key of a directory.  The names `.` and `..` are the only ones whose stored forms
a directory takes for itself or its parent.
-/

namespace BlockFS

/-! ## The bytes of a text -/

theorem toList_loop_eq (bytes : ByteArray) (i : Nat) (front : List UInt8) :
    ByteArray.toList.loop bytes i front = front.reverse ++ bytes.data.toList.drop i := by
  fun_induction ByteArray.toList.loop bytes i front with
  | case1 i front hlt ih =>
    have hlen : i < bytes.data.toList.length := hlt
    have hget : bytes.get! i = bytes.data.toList[i] := by
      change bytes.data[i]! = _
      rw [getElem!_pos bytes.data i hlt, Array.getElem_toList]
    rw [ih, hget, List.drop_eq_getElem_cons hlen, List.reverse_cons, List.append_assoc,
      List.singleton_append]
  | case2 i front hge =>
    have hlen : bytes.data.toList.length ≤ i := Nat.le_of_not_lt hge
    rw [List.drop_eq_nil_of_le hlen, List.append_nil]

theorem toList_eq_data_toList (bytes : ByteArray) : bytes.toList = bytes.data.toList := by
  rw [ByteArray.toList, toList_loop_eq]
  rfl

theorem eq_of_toUTF8_toList_eq {a b : String} (h : a.toUTF8.toList = b.toUTF8.toList) : a = b := by
  rw [toList_eq_data_toList, toList_eq_data_toList] at h
  have hbytes : a.toByteArray = b.toByteArray := ByteArray.ext (Array.ext' h)
  exact String.toByteArray_inj.mp hbytes

theorem toList_toUTF8_here : ".".toUTF8.toList = [0x2E] := by
  rw [toList_eq_data_toList]
  decide

theorem toList_toUTF8_up : "..".toUTF8.toList = [0x2E, 0x2E] := by
  rw [toList_eq_data_toList]
  decide

namespace StoredName

/-- The stored form of `.`. -/
def here : StoredName := .ofList nameWidth [0x2E]

/-- The stored form of `..`. -/
def up : StoredName := .ofList nameWidth [0x2E, 0x2E]

theorem here_ne_up : here ≠ up := by decide

theorem isSelfOrParent_here : here.isSelfOrParent = true := by decide

theorem isSelfOrParent_up : up.isSelfOrParent = true := by decide

theorem encode_eq_ok_iff {name : String} {n : StoredName} :
    encode name = .ok n ↔
      name.toUTF8.toList ≠ [] ∧ 0 ∉ name.toUTF8.toList ∧
        n = .ofList nameWidth name.toUTF8.toList := by
  simp only [encode, List.isEmpty_iff, List.contains_iff_mem]
  split
  · next h => grind
  · next h => grind

theorem encode_here : encode "." = .ok here :=
  encode_eq_ok_iff.mpr (by rw [toList_toUTF8_here]; exact ⟨by decide, by decide, rfl⟩)

theorem encode_up : encode ".." = .ok up :=
  encode_eq_ok_iff.mpr (by rw [toList_toUTF8_up]; exact ⟨by decide, by decide, rfl⟩)

theorem encode_error {name : String} {e : Error} (h : encode name = .error e) :
    e = .invalidName := by
  rw [encode] at h
  split at h
  · cases h
    rfl
  · cases h

/-- Byte `i` of a stored name is zero exactly behind the bytes of the name. -/
theorem getElem_eq_zero_iff {name : String} {n : StoredName} (h : encode name = .ok n)
    {i : Nat} (hi : i < nameWidth) : n[i] = 0 ↔ name.toUTF8.toList.length ≤ i := by
  obtain ⟨-, hzero, rfl⟩ := encode_eq_ok_iff.mp h
  rw [Bytes.getElem_ofList]
  rcases Nat.lt_or_ge i name.toUTF8.toList.length with hlt | hge
  · have hne : name.toUTF8.toList[i] ≠ 0 := fun e => hzero (e ▸ List.getElem_mem hlt)
    simp only [List.getElem?_eq_getElem hlt, Option.getD_some, hne, false_iff]
    omega
  · simp only [List.getElem?_eq_none hge, Option.getD_none, hge]

/-- No other name than `.` and `..` is stored as one of them. -/
theorem eq_of_isSelfOrParent {name : String} {n : StoredName} (h : encode name = .ok n)
    (hdot : n.isSelfOrParent = true) : BlockFS.isSelfOrParent name = true := by
  have hlen1 := getElem_eq_zero_iff h (show 1 < nameWidth by decide)
  have hlen2 := getElem_eq_zero_iff h (show 2 < nameWidth by decide)
  obtain ⟨hne, -, hn⟩ := encode_eq_ok_iff.mp h
  have hget (i : Nat) (hi : i < nameWidth) : n[i] = name.toUTF8.toList[i]?.getD 0 := by
    rw [hn, Bytes.getElem_ofList]
  simp only [StoredName.isSelfOrParent, Bool.and_eq_true, Bool.or_eq_true, beq_iff_eq,
    hlen1, hlen2] at hdot
  obtain ⟨h0, hshort | ⟨h1, hlen⟩⟩ := hdot
  · have hraw : name.toUTF8.toList = ".".toUTF8.toList := by
      rw [toList_toUTF8_here]
      rw [hget 0 (by decide)] at h0
      match hr : name.toUTF8.toList with
      | [] => exact absurd hr hne
      | [a] =>
        rw [hr] at h0
        rw [show a = 0x2E from h0]
      | _ :: _ :: _ =>
        rw [hr] at hshort
        simp at hshort
    simp [BlockFS.isSelfOrParent, eq_of_toUTF8_toList_eq hraw]
  · have hraw : name.toUTF8.toList = "..".toUTF8.toList := by
      rw [toList_toUTF8_up]
      rw [hget 0 (by decide)] at h0
      rw [hget 1 (by decide)] at h1
      match hr : name.toUTF8.toList with
      | [] => exact absurd hr hne
      | [a] =>
        rw [hr] at h1
        cases h1
      | [a, b] =>
        rw [hr] at h0 h1
        rw [show a = 0x2E from h0, show b = 0x2E from h1]
      | _ :: _ :: _ :: _ =>
        rw [hr] at hlen
        simp at hlen
    simp [BlockFS.isSelfOrParent, eq_of_toUTF8_toList_eq hraw]

/-- A name of known bytes, none of them zero, is stored as these. -/
theorem encode_of_bytes {name : String} {bytes : List UInt8} (h : name.toUTF8.data.toList = bytes)
    (hne : bytes ≠ []) (hzero : 0 ∉ bytes) : encode name = .ok (.ofList nameWidth bytes) := by
  rw [← toList_eq_data_toList] at h
  subst h
  exact encode_eq_ok_iff.mpr ⟨hne, hzero, rfl⟩

theorem encode_a : encode "a" = .ok (.ofList nameWidth [0x61]) :=
  encode_of_bytes (by decide) (by decide) (by decide)

theorem encode_b : encode "b" = .ok (.ofList nameWidth [0x62]) :=
  encode_of_bytes (by decide) (by decide) (by decide)

theorem encode_replacement : encode "\uFFFD" = .ok (.ofList nameWidth [0xEF, 0xBF, 0xBD]) :=
  encode_of_bytes (by decide) (by decide) (by decide)

end StoredName

end BlockFS
