import Mathlib.Algebra.Group.Nat.Defs
import Mathlib.Data.List.Basic

/-!
# Frames with a length for the header only

Four bytes of length, the header, and a body that goes on to the end. Reading back what
was written gives both parts. Of a frame that was cut off the header is either whole or
missed, and the body is what is left of it: nothing tells that more was there.
-/

namespace Frame

/-- `u32::to_le_bytes` of a length. -/
def toLeBytes (length : Nat) : List UInt8 :=
  [UInt8.ofNat length, UInt8.ofNat (length / 256), UInt8.ofNat (length / 65536),
    UInt8.ofNat (length / 16777216)]

/-- `u32::from_le_bytes`. -/
def fromLeBytes (first second third fourth : UInt8) : Nat :=
  first.toNat + 256 * second.toNat + 65536 * third.toNat + 16777216 * fourth.toNat

/-- A header and a body in one file. -/
def frame (header body : List UInt8) : List UInt8 := toLeBytes header.length ++ header ++ body

/-- Why a file is no frame. -/
inductive FrameError
  | tooSmall
  | truncated
  deriving DecidableEq

/-- The header and the body of a file. -/
def unframe : List UInt8 → Except FrameError (List UInt8 × List UInt8)
  | first :: second :: third :: fourth :: rest =>
      let length := fromLeBytes first second third fourth
      if rest.length < length then .error .truncated
      else .ok (rest.take length, rest.drop length)
  | _ => .error .tooSmall

/-- A length below `2 ^ 32` is read as it was written. -/
theorem fromLeBytes_toLeBytes {length : Nat} (short : length < 2 ^ 32) :
    fromLeBytes (UInt8.ofNat length) (UInt8.ofNat (length / 256))
      (UInt8.ofNat (length / 65536)) (UInt8.ofNat (length / 16777216)) = length := by
  simp only [fromLeBytes, UInt8.toNat_ofNat']
  omega

section Cut

variable {header body : List UInt8}

/-- A frame that was cut off anywhere: refused before the end of the header, and after it
read as if its body ended there. -/
theorem unframe_take (short : header.length < 2 ^ 32) (length : Nat) :
    unframe ((frame header body).take length) =
      if length < 4 then .error .tooSmall
      else if length < 4 + header.length then .error .truncated
      else .ok (header, body.take (length - (4 + header.length))) := by
  match length with
  | 0 | 1 | 2 | 3 => rfl
  | length + 4 =>
      have read := fromLeBytes_toLeBytes short
      have cut : (frame header body).take (length + 4) =
          toLeBytes header.length ++ (header ++ body).take length := by
        simp [frame, toLeBytes]
      rw [cut, if_neg (by omega : ¬ length + 4 < 4)]
      simp only [toLeBytes, List.cons_append, List.nil_append, unframe, read]
      by_cases missed : length < header.length
      · have few : ((header ++ body).take length).length < header.length := by
          rw [List.length_take]
          omega
        rw [if_pos few, if_pos (by omega)]
      · have enough : ¬ ((header ++ body).take length).length < header.length := by
          rw [List.length_take, List.length_append]
          omega
        rw [if_neg enough, if_neg (by omega), List.take_append,
          List.take_of_length_le (by omega : header.length ≤ length),
          List.take_left, List.drop_left]
        congr 3
        omega

/-- Reading back what was written. -/
theorem unframe_frame (short : header.length < 2 ^ 32) :
    unframe (frame header body) = .ok (header, body) := by
  have cut : unframe ((frame header body).take (frame header body).length) = _ :=
    unframe_take short _
  have total : (frame header body).length = 4 + header.length + body.length := by
    simp only [frame, toLeBytes, List.length_append, List.length_cons, List.length_nil]
  rw [List.take_length, total, if_neg (by omega), if_neg (by omega),
    Nat.add_sub_cancel_left, List.take_length] at cut
  exact cut

end Cut

end Frame
