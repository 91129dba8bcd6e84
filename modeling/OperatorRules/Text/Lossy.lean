/-!
# Bytes as text

The text of bytes that are meant as UTF-8. Where they are not, the longest start of a character that
is cut off, or else a single byte, is shown as one replacement character.
-/

namespace OperatorRules.Text

/-- What is shown for bytes that are no text. -/
def replacement : Char := '\ufffd'

def isContinuation (b : UInt8) : Bool := 0x80 ≤ b && b ≤ 0xbf

/-- The second bytes that may follow a first byte of a character of three bytes. -/
def followsThree (first second : UInt8) : Bool :=
  (first == 0xe0 && 0xa0 ≤ second && second ≤ 0xbf) ||
    (0xe1 ≤ first && first ≤ 0xec && isContinuation second) ||
    (first == 0xed && 0x80 ≤ second && second ≤ 0x9f) ||
    (0xee ≤ first && first ≤ 0xef && isContinuation second)

/-- The second bytes that may follow a first byte of a character of four bytes. -/
def followsFour (first second : UInt8) : Bool :=
  (first == 0xf0 && 0x90 ≤ second && second ≤ 0xbf) ||
    (0xf1 ≤ first && first ≤ 0xf3 && isContinuation second) ||
    (first == 0xf4 && 0x80 ≤ second && second ≤ 0x8f)

def tailBits (b : UInt8) : Nat := b.toNat % 0x40

/-- The character at the start of bytes, and how many bytes beyond the first belong to it. -/
def lossyHead (first : UInt8) (rest : List UInt8) : Char × Nat :=
  if first < 0x80 then (Char.ofNat first.toNat, 0)
  else if 0xc2 ≤ first ∧ first ≤ 0xdf then
    match rest with
    | b :: _ =>
      if isContinuation b then (Char.ofNat (first.toNat % 0x20 * 0x40 + tailBits b), 1)
      else (replacement, 0)
    | [] => (replacement, 0)
  else if 0xe0 ≤ first ∧ first ≤ 0xef then
    match rest with
    | b :: rest =>
      if followsThree first b then
        match rest with
        | c :: _ =>
          if isContinuation c then
            (Char.ofNat (first.toNat % 0x10 * 0x1000 + tailBits b * 0x40 + tailBits c), 2)
          else (replacement, 1)
        | [] => (replacement, 1)
      else (replacement, 0)
    | [] => (replacement, 0)
  else
    match rest with
    | b :: rest =>
      if followsFour first b then
        match rest with
        | c :: rest =>
          if isContinuation c then
            match rest with
            | d :: _ =>
              if isContinuation d then
                (Char.ofNat (first.toNat % 0x8 * 0x40000 + tailBits b * 0x1000 +
                  tailBits c * 0x40 + tailBits d), 3)
              else (replacement, 2)
            | [] => (replacement, 2)
          else (replacement, 1)
        | [] => (replacement, 1)
      else (replacement, 0)
    | [] => (replacement, 0)

def lossy : List UInt8 → List Char
  | [] => []
  | first :: rest =>
    let (c, extra) := lossyHead first rest
    c :: lossy (rest.drop extra)
termination_by bytes => bytes.length
decreasing_by simp only [List.length_drop, List.length_cons]; omega

def ofBytes (bytes : ByteArray) : String := String.ofList (lossy bytes.toList)

end OperatorRules.Text
