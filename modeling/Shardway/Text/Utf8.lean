/-!
UTF-8: characters as one to four bytes, read back with the place and the extent of the first fault.
-/
namespace Shardway

/-- A sequence of octets. -/
abbrev Bytes := List UInt8

namespace Text.Utf8

/-- The bytes of one character. -/
def encodeChar (c : Char) : Bytes :=
  let n := c.toNat
  if n < 0x80 then [UInt8.ofNat n]
  else if n < 0x800 then [UInt8.ofNat (0xC0 + n / 64), UInt8.ofNat (0x80 + n % 64)]
  else if n < 0x10000 then
    [UInt8.ofNat (0xE0 + n / 4096), UInt8.ofNat (0x80 + n / 64 % 64), UInt8.ofNat (0x80 + n % 64)]
  else
    [UInt8.ofNat (0xF0 + n / 262144), UInt8.ofNat (0x80 + n / 4096 % 64),
      UInt8.ofNat (0x80 + n / 64 % 64), UInt8.ofNat (0x80 + n % 64)]

/-- The bytes of a text. -/
def encode (s : String) : Bytes := s.toList.flatMap encodeChar

/-- A byte between `lo` and `hi`. -/
def within (lo hi : Nat) (b : UInt8) : Bool := lo ≤ b.toNat && b.toNat ≤ hi

/-- The bytes that follow the first one of a character. -/
def isTail (b : UInt8) : Bool := within 0x80 0xBF b

/-- How many bytes a character has whose first byte is `a`; 0 when no character begins so. -/
def width (a : UInt8) : Nat :=
  if within 0 0x7F a then 1
  else if within 0xC2 0xDF a then 2
  else if within 0xE0 0xEF a then 3
  else if within 0xF0 0xF4 a then 4
  else 0

/-- The second byte of a longer character: after some first bytes not every tail byte may follow,
so that no character has two spellings and none is a surrogate or past the last code point. -/
def isSecond (a b : UInt8) : Bool :=
  if a = 0xE0 then within 0xA0 0xBF b
  else if a = 0xED then within 0x80 0x9F b
  else if a = 0xF0 then within 0x90 0xBF b
  else if a = 0xF4 then within 0x80 0x8F b
  else isTail b

/-- What stands at the head of a byte sequence. -/
inductive Head
  | char (c : Char) (rest : Bytes)
  /-- So many bytes that begin no character. -/
  | bad (size : Nat) (rest : Bytes)
  /-- A character that the end of the sequence cuts off. -/
  | cut

/-- The low six bits of a tail byte. -/
def tailBits (b : UInt8) : Nat := b.toNat % 64

/-- Reads the head of the sequence `a :: r`. -/
def head (a : UInt8) (r : Bytes) : Head :=
  match width a with
  | 1 => .char (Char.ofNat a.toNat) r
  | 2 =>
    match r with
    | [] => .cut
    | b :: r₁ =>
      if isTail b then .char (Char.ofNat ((a.toNat - 0xC0) * 64 + tailBits b)) r₁ else .bad 1 r
  | 3 =>
    match r with
    | [] => .cut
    | b :: r₁ =>
      if isSecond a b then
        match r₁ with
        | [] => .cut
        | c :: r₂ =>
          if isTail c then
            .char (Char.ofNat (((a.toNat - 0xE0) * 64 + tailBits b) * 64 + tailBits c)) r₂
          else .bad 2 r₁
      else .bad 1 r
  | 4 =>
    match r with
    | [] => .cut
    | b :: r₁ =>
      if isSecond a b then
        match r₁ with
        | [] => .cut
        | c :: r₂ =>
          if isTail c then
            match r₂ with
            | [] => .cut
            | d :: r₃ =>
              if isTail d then
                .char (Char.ofNat ((((a.toNat - 0xF0) * 64 + tailBits b) * 64 + tailBits c) * 64
                  + tailBits d)) r₃
              else .bad 3 r₂
          else .bad 2 r₁
      else .bad 1 r
  | _ => .bad 1 r

/-- The bytes left after the head. -/
def Head.rest : Head → Bytes
  | .char _ r | .bad _ r => r
  | .cut => []

theorem head_rest_length (a : UInt8) (r : Bytes) : (head a r).rest.length ≤ r.length := by
  unfold head
  (repeat' split) <;> simp only [Head.rest, List.length_cons, List.length_nil] <;> omega

/-- Where decoding stopped, and the extent of the bytes at fault, or none when the sequence ends
inside a character. -/
structure Fault where
  index : Nat
  size : Option Nat
deriving DecidableEq, Repr

def Fault.message (f : Fault) : String :=
  match f.size with
  | some n => s!"invalid utf-8 sequence of {n} bytes from index {f.index}"
  | none => s!"incomplete utf-8 byte sequence from index {f.index}"

/-- The characters of a sequence that begins at index `i`. -/
def decodeFrom (i : Nat) : Bytes → Except Fault (List Char)
  | [] => .ok []
  | a :: r =>
    have shorter := head_rest_length a r
    match h : head a r with
    | .char c rest =>
      have : rest.length < r.length + 1 := by rw [h] at shorter; exact Nat.lt_succ_of_le shorter
      (decodeFrom (i + width a) rest).map (c :: ·)
    | .bad n _ => .error ⟨i, some n⟩
    | .cut => .error ⟨i, none⟩
termination_by bytes => bytes.length

/-- The text whose bytes these are. -/
def decode (bytes : Bytes) : Except Fault String :=
  (decodeFrom 0 bytes).map String.ofList

/-- The text whose bytes these are, if there is one. -/
def decode? (bytes : Bytes) : Option String := (decode bytes).toOption

/-- The characters of a sequence, with a replacement character for each run at fault. -/
def decodeLossyChars : Bytes → List Char
  | [] => []
  | a :: r =>
    have shorter := head_rest_length a r
    match h : head a r with
    | .char c rest =>
      have : rest.length < r.length + 1 := by rw [h] at shorter; exact Nat.lt_succ_of_le shorter
      c :: decodeLossyChars rest
    | .bad _ rest =>
      have : rest.length < r.length + 1 := by rw [h] at shorter; exact Nat.lt_succ_of_le shorter
      '\ufffd' :: decodeLossyChars rest
    | .cut => ['\ufffd']
termination_by bytes => bytes.length

/-- The text of a sequence, with a replacement character for each run at fault. -/
def decodeLossy (bytes : Bytes) : String := String.ofList (decodeLossyChars bytes)

end Text.Utf8
end Shardway
