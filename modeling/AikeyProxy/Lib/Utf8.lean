import AikeyProxy.Lib.Json

/-!
# Texts and JSON documents as bytes

`utf8` writes a text and `runes` reads one back. Bytes need not be a text: where they are none,
`runes` takes a single byte for U+FFFD and reads on behind it, and so does `payloadJson` for a
document.
-/

namespace Lib

open List

def utf8 (s : List Char) : List UInt8 := s.flatMap String.utf8EncodeChar

/-- The characters behind the first `skip` bytes, which belong to one already read. -/
def runesFrom : Nat → List UInt8 → List Char
  | _, [] => []
  | skip + 1, _ :: bytes => runesFrom skip bytes
  | 0, b :: bytes =>
    match ((b :: bytes).take 4).toByteArray.utf8DecodeChar? 0 with
    | some c => c :: runesFrom (c.utf8Size - 1) bytes
    | none => '�' :: runesFrom 0 bytes

def runes (bytes : List UInt8) : List Char := runesFrom 0 bytes

theorem runesFrom_skip (a bytes : List UInt8) : runesFrom a.length (a ++ bytes) = runes bytes := by
  induction a with
  | nil => rfl
  | cons b a ih => exact ih

theorem runes_append (c : Char) (bytes : List UInt8) :
    runes (String.utf8EncodeChar c ++ bytes) = c :: runes bytes := by
  have hsize := String.length_utf8EncodeChar c
  have hfour : (String.utf8EncodeChar c).length ≤ 4 := hsize ▸ c.utf8Size_le_four
  have hdecode : ((String.utf8EncodeChar c ++ bytes).take 4).toByteArray.utf8DecodeChar? 0 =
      some c := by
    rw [take_append, take_of_length_le hfour, toByteArray_append]
    exact ByteArray.utf8DecodeChar?_utf8EncodeChar_append
  cases hcode : String.utf8EncodeChar c with
  | nil =>
    rw [hcode] at hsize
    exact absurd hsize.symm (Nat.ne_of_gt c.utf8Size_pos)
  | cons b code =>
    rw [hcode, cons_append] at hdecode
    rw [hcode, length_cons] at hsize
    rw [cons_append, runes, runesFrom, hdecode]
    dsimp only
    rw [← hsize]
    exact congrArg (c :: ·) (runesFrom_skip code bytes)

theorem runes_utf8 (s : List Char) : runes (utf8 s) = s := by
  induction s with
  | nil => rfl
  | cons c s ih => exact (runes_append c (utf8 s)).trans (congrArg (c :: ·) ih)

theorem utf8EncodeChar_printable {c : Char} (hc : 0x20 ≤ c.toNat) :
    ∀ b ∈ String.utf8EncodeChar c, 0x20 ≤ b.toNat := by
  have hval : c.val.toNat = c.toNat := rfl
  intro b hb
  unfold String.utf8EncodeChar at hb
  dsimp only at hb
  rw [hval] at hb
  -- every byte of a code of more than one has its top bit set
  by_cases h1 : c.toNat ≤ 127
  · rw [if_pos h1, mem_singleton] at hb
    rw [hb, UInt8.toNat_ofNat']
    omega
  · rw [if_neg h1] at hb
    have hbyte : ∃ n, b = UInt8.ofNat n ∧ 128 ≤ n ∧ n < 256 := by
      split at hb
      · simp only [mem_cons, not_mem_nil, or_false] at hb
        rcases hb with rfl | rfl <;> exact ⟨_, rfl, by omega, by omega⟩
      · split at hb
        · simp only [mem_cons, not_mem_nil, or_false] at hb
          rcases hb with rfl | rfl | rfl <;> exact ⟨_, rfl, by omega, by omega⟩
        · simp only [mem_cons, not_mem_nil, or_false] at hb
          rcases hb with rfl | rfl | rfl | rfl <;> exact ⟨_, rfl, by omega, by omega⟩
    obtain ⟨n, rfl, hlo, hhi⟩ := hbyte
    rw [UInt8.toNat_ofNat']
    omega

theorem utf8_printable {s : List Char} (hs : Json.Printable s) : ∀ b ∈ utf8 s, 0x20 ≤ b.toNat := by
  intro b hb
  obtain ⟨c, hc, hbc⟩ := mem_flatMap.mp hb
  exact utf8EncodeChar_printable (hs c hc) b hbc

def payloadJson (p : List UInt8) : Option Json := Json.parse (runes p)

def payloadBytes (j : Json) : List UInt8 := utf8 (Json.print j)

theorem payloadJson_payloadBytes {j : Json} (hj : Json.Valid j) :
    payloadJson (payloadBytes j) = some j := by
  rw [payloadJson, payloadBytes, runes_utf8, Json.parse_print hj]

theorem payloadBytes_printable {j : Json} (hj : Json.Valid j) :
    ∀ b ∈ payloadBytes j, 0x20 ≤ b.toNat :=
  utf8_printable (Json.print_printable j hj)

end Lib
