import Mathlib.Data.List.Basic

/-! UTF-8 as a partial function of lists of bytes. Decoding is the inverse of encoding:
a list of bytes decodes to a string exactly if it is the encoding of that string. -/

namespace Lobbyboy.Foundation.Utf8

def encode (s : String) : List UInt8 := s.toList.flatMap String.utf8EncodeChar

/-- `none` where the bytes are not valid UTF-8. -/
def decode? (bs : List UInt8) : Option String := String.fromUTF8? ⟨bs.toArray⟩

theorem toByteArray_eq (s : String) : s.toByteArray = (encode s).toByteArray :=
  String.utf8Encode_toList.symm

theorem decode?_eq_some_iff {bs : List UInt8} {s : String} :
    decode? bs = some s ↔ encode s = bs := by
  have hbytes : s.toByteArray = ⟨bs.toArray⟩ ↔ encode s = bs := by
    rw [toByteArray_eq, ByteArray.ext_iff, List.data_toByteArray]
    exact ⟨List.toArray_inj, congrArg _⟩
  rw [← hbytes, decode?, String.fromUTF8?]
  split
  · next h =>
    rw [Option.some.injEq, ← String.toByteArray_inj]
    exact eq_comm
  · next h =>
    constructor
    · intro hs
      cases hs
    · intro hs
      exact absurd (hs ▸ s.isValidUTF8) h

theorem decode?_encode (s : String) : decode? (encode s) = some s := decode?_eq_some_iff.mpr rfl

/-- A byte below 128 is a character of its own. -/
theorem utf8EncodeChar_ascii {b : UInt8} (h : b < 128) :
    String.utf8EncodeChar (Char.ofNat b.toNat) = [b] := by
  have hlt : b.toNat < 128 := UInt8.lt_iff_toNat_lt.mp h
  have hval : (Char.ofNat b.toNat).val.toNat = b.toNat := by
    rw [Char.ofNat, dif_pos (.inl (by omega))]
    rfl
  simp only [String.utf8EncodeChar, hval]
  rw [if_pos (by omega), UInt8.ofNat_toNat]

/-- ASCII is encoded character by character. -/
theorem encode_ascii {s : String} (h : ∀ c ∈ s.toList, c.toNat < 128) :
    encode s = s.toList.map fun c => UInt8.ofNat c.toNat := by
  rw [encode]
  generalize s.toList = cs at h ⊢
  induction cs with
  | nil => rfl
  | cons c cs ih =>
    obtain ⟨hc, hcs⟩ := List.forall_mem_cons.mp h
    have hchar : String.utf8EncodeChar c = [UInt8.ofNat c.toNat] := by
      have hval : c.val.toNat ≤ 127 := Nat.le_of_lt_succ hc
      simp only [String.utf8EncodeChar, if_pos hval]
      rfl
    rw [List.flatMap_cons, hchar, ih hcs]
    rfl

/-- ASCII decodes byte by byte. -/
theorem decode?_ascii {bs : List UInt8} (h : ∀ b ∈ bs, b < 128) :
    decode? bs = some (String.ofList (bs.map fun b => Char.ofNat b.toNat)) := by
  rw [decode?_eq_some_iff, encode, String.toList_ofList]
  induction bs with
  | nil => rfl
  | cons b bs ih =>
    obtain ⟨hb, hbs⟩ := List.forall_mem_cons.mp h
    rw [List.map_cons, List.flatMap_cons, utf8EncodeChar_ascii hb, ih hbs, List.singleton_append]

end Lobbyboy.Foundation.Utf8
