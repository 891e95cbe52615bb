import Shardway.Codec.Shape
import Shardway.Fault

/-!
The layout of stored values: integers with the lowest byte first, lengths in eight bytes, cases by a
number in four, and one byte before all that tells the version.
-/
namespace Shardway.Codec

/-! ## Writing -/

/-- The `count` lowest bytes of a number, the lowest first. -/
def littleEndian : Nat → Nat → Bytes
  | 0, _ => []
  | count + 1, n => UInt8.ofNat (n % 256) :: littleEndian count (n / 256)

def writeLength (n : Nat) : Bytes := littleEndian 8 n

def writeText (s : String) : Bytes :=
  let bytes := Text.Utf8.encode s
  writeLength bytes.length ++ bytes

mutual

def writeRose (f : α → Bytes) : Rose α → Bytes
  | .node label kids => f label ++ (writeLength kids.length ++ writeRoses f kids)

def writeRoses (f : α → Bytes) : List (Rose α) → Bytes
  | [] => []
  | t :: r => writeRose f t ++ writeRoses f r

end

mutual

/-- The bytes of a value. -/
def write : (s : Shape) → s.Carrier → Bytes
  | .unit, _ => []
  | .int _ bytes, v => littleEndian bytes (BitVec.toNat v)
  | .float, v => littleEndian 8 (BitVec.toNat v)
  | .bool, true => [1]
  | .bool, false => [0]
  | .char, c => Text.Utf8.encodeChar c
  | .text, t => writeText t
  | .option _, none => [0]
  | .option s, some v => 1 :: write s v
  | .list s, l => writeLength l.length ++ l.flatMap (write s)
  | .array _ s, l => l.1.flatMap (write s)
  | .pair s t, (v, w) => write s v ++ write t w
  | .map s, l => writeLength l.length ++ l.flatMap fun (k, v) => writeText k ++ write s v
  | .rose s, t => writeRose (write s) t
  | .choice cs, v => writeCase 0 cs v

/-- The bytes of a case, the cases being numbered from `i` on. -/
def writeCase (i : Nat) : (cs : Cases) → cs.Carrier → Bytes
  | .more s _, .inl v => littleEndian 4 i ++ write s v
  | .more _ r, .inr v => writeCase (i + 1) r v

end

/-! ## Reading -/

/-- Why bytes are not a value of the shape due. -/
inductive Flaw
  /-- The bytes end inside a number, a tag or a truth value. -/
  | truncated
  /-- Fewer bytes are left than the length of a text says. -/
  | shortText
  | badChar
  | badBool (found : UInt8)
  | badOption (found : UInt8)
  | badCase (found cases : Nat)
  | badText (fault : Text.Utf8.Fault)
  | noBytes
  | badVersion (found : UInt8)
deriving DecidableEq, Repr

namespace Flaw

def message : Flaw → String
  | truncated => "io error: unexpected end of file"
  | shortText => "io error: "
  | badChar => "char is not valid"
  | badBool n => s!"invalid u8 while decoding bool, expected 0 or 1, found {n}"
  | badOption n => s!"tag for enum is not valid, found {n}"
  | badCase n cases => s!"invalid value: integer `{n}`, expected variant index 0 <= i < {cases}"
  | badText fault => s!"string is not valid utf8: {fault.message}"
  | noBytes => "empty value"
  | badVersion n => s!"unsupported encoding version {n}"

def fault (f : Flaw) : Fault := .codec f.message

end Flaw

/-- A value read from the front of the bytes, and the bytes after it. -/
abbrev Result (α : Type) := Except Flaw (α × Bytes)

/-- The number in the first `count` bytes. -/
def readLittleEndian : Nat → Bytes → Result Nat
  | 0, bytes => .ok (0, bytes)
  | _ + 1, [] => .error .truncated
  | count + 1, b :: r =>
    match readLittleEndian count r with
    | .error e => .error e
    | .ok (n, rest) => .ok (b.toNat + 256 * n, rest)

def readChar : Bytes → Result Char
  | [] => .error .truncated
  | a :: r =>
    match Text.Utf8.head a r with
    | .char c rest => .ok (c, rest)
    | _ => .error .badChar

def readText (bytes : Bytes) : Result String :=
  match readLittleEndian 8 bytes with
  | .error e => .error e
  | .ok (n, rest) =>
    if rest.length < n then .error .shortText
    else
      match Text.Utf8.decode (rest.take n) with
      | .error e => .error (.badText e)
      | .ok s => .ok (s, rest.drop n)

/-- So many values one after the other. -/
def readMany (f : Bytes → Result α) : (n : Nat) → Bytes → Result { l : List α // l.length = n }
  | 0, bytes => .ok (⟨[], rfl⟩, bytes)
  | n + 1, bytes =>
    match f bytes with
    | .error e => .error e
    | .ok (v, rest) =>
      match readMany f n rest with
      | .error e => .error e
      | .ok (l, rest) => .ok (⟨v :: l.1, congrArg (· + 1) l.2⟩, rest)

/-- A length, then so many values. -/
def readList (f : Bytes → Result α) (bytes : Bytes) : Result (List α) :=
  match readLittleEndian 8 bytes with
  | .error e => .error e
  | .ok (n, rest) =>
    match readMany f n rest with
    | .error e => .error e
    | .ok (l, rest) => .ok (l.1, rest)

/-- A tree of at most `depth` levels. -/
def readRose (f : Bytes → Result α) : (depth : Nat) → Bytes → Result (Rose α)
  | 0, _ => .error .truncated
  | depth + 1, bytes =>
    match f bytes with
    | .error e => .error e
    | .ok (label, rest) =>
      match readList (readRose f depth) rest with
      | .error e => .error e
      | .ok (kids, rest) => .ok (.node label kids, rest)

/-- Puts a named value among others in the order of names, in place of one of the same name. -/
def insertNamed (k : String) (v : α) : List (String × α) → List (String × α)
  | [] => [(k, v)]
  | (k', v') :: r =>
    if k < k' then (k, v) :: (k', v') :: r
    else if k = k' then (k, v) :: r
    else (k', v') :: insertNamed k v r

/-- The values by name; of two with one name the later one counts. -/
def collectNamed (l : List (String × α)) : List (String × α) :=
  l.foldl (fun m (k, v) => insertNamed k v m) []

mutual

/-- Reads a value of a shape. -/
def read : (s : Shape) → Bytes → Result s.Carrier
  | .unit, bytes => .ok ((), bytes)
  | .int _ n, bytes =>
    match readLittleEndian n bytes with
    | .error e => .error e
    | .ok (v, rest) => .ok (BitVec.ofNat (8 * n) v, rest)
  | .float, bytes =>
    match readLittleEndian 8 bytes with
    | .error e => .error e
    | .ok (v, rest) => .ok (BitVec.ofNat 64 v, rest)
  | .bool, [] => .error .truncated
  | .bool, b :: rest =>
    if b = 0 then .ok (false, rest) else if b = 1 then .ok (true, rest) else .error (.badBool b)
  | .char, bytes => readChar bytes
  | .text, bytes => readText bytes
  | .option _, [] => .error .truncated
  | .option s, b :: rest =>
    if b = 0 then .ok (none, rest)
    else if b = 1 then
      match read s rest with
      | .error e => .error e
      | .ok (v, rest) => .ok (some v, rest)
    else .error (.badOption b)
  | .list s, bytes => readList (read s) bytes
  | .array n s, bytes => readMany (read s) n bytes
  | .pair s t, bytes =>
    match read s bytes with
    | .error e => .error e
    | .ok (v, rest) =>
      match read t rest with
      | .error e => .error e
      | .ok (w, rest) => .ok ((v, w), rest)
  | .map s, bytes =>
    match readList (fun bytes => match readText bytes with
        | .error e => .error e
        | .ok (k, rest) =>
          match read s rest with
          | .error e => .error e
          | .ok (v, rest) => .ok ((k, v), rest)) bytes with
    | .error e => .error e
    | .ok (l, rest) => .ok (collectNamed l, rest)
  | .rose s, bytes => readRose (read s) (bytes.length + 1) bytes
  | .choice cs, bytes =>
    match readLittleEndian 4 bytes with
    | .error e => .error e
    | .ok (i, rest) => readCase cs i (.badCase i cs.size) rest

/-- Reads the `i`-th of the cases; `missing` is the flaw when there is none. -/
def readCase : (cs : Cases) → Nat → Flaw → Bytes → Result cs.Carrier
  | .none, _, missing, _ => .error missing
  | .more s _, 0, _, bytes =>
    match read s bytes with
    | .error e => .error e
    | .ok (v, rest) => .ok (.inl v, rest)
  | .more _ r, i + 1, missing, bytes =>
    match readCase r i missing bytes with
    | .error e => .error e
    | .ok (v, rest) => .ok (.inr v, rest)

end

/-! ## The envelope -/

/-- The version of this layout. -/
def version : UInt8 := 1

/-- A value as it is stored. -/
def encode (s : Shape) (v : s.Carrier) : Bytes := version :: write s v

/-- The value that is stored as these bytes; what follows it does not matter. -/
def decode (s : Shape) : Bytes → Except Flaw s.Carrier
  | [] => .error .noBytes
  | v :: payload =>
    if v = version then
      match read s payload with
      | .error e => .error e
      | .ok (value, _) => .ok value
    else .error (.badVersion v)

end Shardway.Codec
