import Mathlib.Data.List.Basic

/-!
# Base64

The encoding with padding and the forgiving decoding that web platforms offer:
white space is dropped, the padding is optional, and left-over bits are ignored.
Both work on sextets, numbers below 64. Decoding an encoding gives the bytes
back.
-/

namespace Base64

/-- The 64 digits. -/
def alphabet : List Char :=
  "ABCDEFGHIJKLMNOPQRSTUVWXYZabcdefghijklmnopqrstuvwxyz0123456789+/".toList

/-- The digit of a sextet. -/
def digit (sextet : Nat) : Char := alphabet.getD sextet '='

/-- The sextet of a digit. -/
def sextet? (char : Char) : Option Nat := alphabet.idxOf? char

/-- Split bytes into sextets, the last one filled up with zero bits. -/
def toSextets : List UInt8 → List Nat
  | [] => []
  | [a] => [a.toNat / 4, a.toNat % 4 * 16]
  | [a, b] =>
      [a.toNat / 4, a.toNat % 4 * 16 + b.toNat / 16, b.toNat % 16 * 4]
  | a :: b :: c :: rest =>
      a.toNat / 4 :: (a.toNat % 4 * 16 + b.toNat / 16) ::
        (b.toNat % 16 * 4 + c.toNat / 64) :: c.toNat % 64 :: toSextets rest

/-- Join sextets to bytes, dropping the bits that fill no byte. -/
def ofSextets : List Nat → List UInt8
  | [] | [_] => []
  | [p, q] => [.ofNat (p * 4 + q / 16)]
  | [p, q, r] => [.ofNat (p * 4 + q / 16), .ofNat (q % 16 * 16 + r / 4)]
  | p :: q :: r :: s :: rest =>
      .ofNat (p * 4 + q / 16) :: .ofNat (q % 16 * 16 + r / 4) ::
        .ofNat (r % 4 * 64 + s) :: ofSextets rest

/-- Encode bytes, padded to a multiple of four digits. -/
def encode (bytes : List UInt8) : String :=
  String.ofList ((toSextets bytes).map digit ++ List.replicate ((3 - bytes.length % 3) % 3) '=')

/-- The white space a decoder drops. -/
def isBlank (char : Char) : Bool := char ∈ ['\t', '\n', '\x0c', '\r', ' ']

/-- Remove one or two final padding characters. -/
def dropPadding (chars : List Char) : List Char :=
  match chars.reverse with
  | '=' :: '=' :: rest => rest.reverse
  | '=' :: rest => rest.reverse
  | _ => chars

/-- Decode forgivingly. -/
def decode (text : String) : Option (List UInt8) :=
  let chars := text.toList.filter fun char => !isBlank char
  let digits := if chars.length % 4 = 0 then dropPadding chars else chars
  if digits.length % 4 = 1 then
    none
  else
    (digits.mapM sextet?).map ofSextets

/-- A byte is one of its own number. -/
theorem ofNat_eq (byte : UInt8) {number : Nat} (same : number = byte.toNat) :
    UInt8.ofNat number = byte := by
  rw [same]
  exact UInt8.ofNat_toNat

/-- Joining the sextets of bytes gives the bytes back. -/
theorem ofSextets_toSextets (bytes : List UInt8) :
    ofSextets (toSextets bytes) = bytes := by
  induction bytes using toSextets.induct with
  | case1 => rfl
  | case2 a =>
      have bound := a.toNat_lt
      simp only [toSextets, ofSextets]
      rw [ofNat_eq a (by omega)]
  | case3 a b =>
      have first := a.toNat_lt
      have second := b.toNat_lt
      simp only [toSextets, ofSextets]
      rw [ofNat_eq a (by omega), ofNat_eq b (by omega)]
  | case4 a b c rest ih =>
      have first := a.toNat_lt
      have second := b.toNat_lt
      have third := c.toNat_lt
      simp only [toSextets, ofSextets]
      rw [ofNat_eq a (by omega), ofNat_eq b (by omega), ofNat_eq c (by omega), ih]

/-- Sextets are below 64. -/
theorem toSextets_lt (bytes : List UInt8) : ∀ sextet ∈ toSextets bytes, sextet < 64 := by
  induction bytes using toSextets.induct with
  | case1 => simp [toSextets]
  | case2 a =>
      have bound := a.toNat_lt
      simp only [toSextets, List.forall_mem_cons]
      exact ⟨by omega, by omega, by simp⟩
  | case3 a b =>
      have first := a.toNat_lt
      have second := b.toNat_lt
      simp only [toSextets, List.forall_mem_cons]
      exact ⟨by omega, by omega, by omega, by simp⟩
  | case4 a b c rest ih =>
      have first := a.toNat_lt
      have second := b.toNat_lt
      have third := c.toNat_lt
      simp only [toSextets, List.forall_mem_cons]
      exact ⟨by omega, by omega, by omega, by omega, ih⟩

/-- Padded, the sextets fill groups of four; without, they never leave one. -/
theorem length_toSextets (bytes : List UInt8) :
    ((toSextets bytes).length + (3 - bytes.length % 3) % 3) % 4 = 0 ∧
      (toSextets bytes).length % 4 ≠ 1 := by
  induction bytes using toSextets.induct with
  | case1 => simp [toSextets]
  | case2 a => simp [toSextets]
  | case3 a b => simp [toSextets]
  | case4 a b c rest ih =>
      simp only [toSextets, List.length_cons]
      omega

/-- A digit stands for its sextet and is neither padding nor white space. -/
theorem digit_spec : ∀ sextet < 64,
    sextet? (digit sextet) = some sextet ∧ digit sextet ≠ '=' ∧ isBlank (digit sextet) = false := by
  decide +kernel

theorem mapM_sextet? {sextets : List Nat} (bound : ∀ sextet ∈ sextets, sextet < 64) :
    (sextets.map digit).mapM sextet? = some sextets := by
  induction sextets with
  | nil => rfl
  | cons sextet sextets ih =>
      obtain ⟨first, others⟩ := List.forall_mem_cons.mp bound
      rw [List.map_cons, List.mapM_cons, (digit_spec sextet first).1, ih others]
      rfl

/-- The padding comes off where the digits contain none. -/
theorem dropPadding_append {digits : List Char} (digital : '=' ∉ digits) {padding : Nat}
    (short : padding ≤ 2) :
    dropPadding (digits ++ List.replicate padding '=') = digits := by
  have head : ∀ char rest, digits.reverse = char :: rest →
      char ≠ '=' := by
    rintro char rest same rfl
    exact digital (List.mem_reverse.mp (same ▸ List.mem_cons_self))
  have unpadded : (match digits.reverse with
      | '=' :: '=' :: rest => rest.reverse
      | '=' :: rest => rest.reverse
      | _ => digits) = digits := by
    split
    · exact absurd rfl (head _ _ ‹_›)
    · exact absurd rfl (head _ _ ‹_›)
    · rfl
  match padding, short with
  | 0, _ =>
      rw [List.replicate_zero, List.append_nil]
      exact unpadded
  | 1, _ =>
      simp only [dropPadding, List.reverse_append, List.replicate_one,
        List.reverse_singleton, List.singleton_append]
      split
      · rename_i rest same
        exact absurd rfl (head '=' rest (List.cons.inj same).2)
      · rename_i rest _ same
        rw [← (List.cons.inj same).2, List.reverse_reverse]
      · rename_i _ other
        exact absurd rfl (other _)
  | 2, _ =>
      simp [dropPadding, List.replicate_succ]

/-- Decoding an encoding gives the bytes back. -/
theorem decode_encode (bytes : List UInt8) : decode (encode bytes) = some bytes := by
  have bound := toSextets_lt bytes
  obtain ⟨padded, unpadded⟩ := length_toSextets bytes
  have unblank : ((toSextets bytes).map digit ++
        List.replicate ((3 - bytes.length % 3) % 3) '=').filter (fun char => !isBlank char) =
      (toSextets bytes).map digit ++ List.replicate ((3 - bytes.length % 3) % 3) '=' := by
    rw [List.filter_eq_self]
    intro char present
    rcases List.mem_append.mp present with shown | padding
    · obtain ⟨sextet, listed, rfl⟩ := List.mem_map.mp shown
      simp [(digit_spec sextet (bound sextet listed)).2.2]
    · rw [List.eq_of_mem_replicate padding]
      rfl
  have digital : '=' ∉ (toSextets bytes).map digit := by
    intro present
    obtain ⟨sextet, listed, same⟩ := List.mem_map.mp present
    exact (digit_spec sextet (bound sextet listed)).2.1 same
  have short : (3 - bytes.length % 3) % 3 ≤ 2 := by omega
  simp only [decode, encode, String.toList_ofList]
  rw [unblank, List.length_append, List.length_map, List.length_replicate,
    if_pos padded, dropPadding_append digital short, List.length_map,
    if_neg unpadded, mapM_sextet? bound, Option.map_some, ofSextets_toSextets]

end Base64
