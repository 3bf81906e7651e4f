import ModuleStubs.Text.Hex

/-! UTF-8 between characters and bytes. `front` reads the first character of a
byte sequence, or the longest piece at its front that starts no character;
the strict and the lenient decoding both walk along it. -/

namespace ModuleStubs.Text.Utf8

def encode (cs : List Char) : List UInt8 := cs.flatMap String.utf8EncodeChar

@[simp] theorem encode_nil : encode [] = [] := rfl

@[simp] theorem encode_cons (c : Char) (cs : List Char) :
    encode (c :: cs) = String.utf8EncodeChar c ++ encode cs := rfl

@[simp] theorem encode_append (a b : List Char) : encode (a ++ b) = encode a ++ encode b :=
  List.flatMap_append

inductive Fault where
  | startByte
  | continuation
  | endOfData

def Fault.message : Fault → String
  | .startByte => "invalid start byte"
  | .continuation => "invalid continuation byte"
  | .endOfData => "unexpected end of data"

/-- What stands at the front: a character or a broken piece, with the number
of bytes it takes after the first. -/
inductive Front where
  | char (c : Char) (more : Nat)
  | broken (why : Fault) (more : Nat)

def isTail (b : UInt8) : Bool := 128 ≤ b.toNat && b.toNat < 192

/-- The second byte also rules out overlong forms, surrogates and numbers
above the last character. -/
def secondFits (lead : Nat) (b : UInt8) : Bool :=
  if lead = 224 then 160 ≤ b.toNat && b.toNat < 192
  else if lead = 237 then 128 ≤ b.toNat && b.toNat < 160
  else if lead = 240 then 144 ≤ b.toNat && b.toNat < 192
  else if lead = 244 then 128 ≤ b.toNat && b.toNat < 144
  else isTail b

def tailBits (b : UInt8) : Nat := b.toNat % 64

def front (b : UInt8) (rest : List UInt8) : Front :=
  let lead := b.toNat
  if lead < 128 then .char (Char.ofNat lead) 0
  else if lead < 194 then .broken .startByte 0
  else if lead < 224 then
    match rest with
    | [] => .broken .endOfData 0
    | c :: _ =>
      if isTail c then .char (Char.ofNat (lead % 32 * 64 + tailBits c)) 1
      else .broken .continuation 0
  else if lead < 240 then
    match rest with
    | [] => .broken .endOfData 0
    | [c] => if secondFits lead c then .broken .endOfData 1 else .broken .continuation 0
    | c :: d :: _ =>
      if !secondFits lead c then .broken .continuation 0
      else if !isTail d then .broken .continuation 1
      else .char (Char.ofNat (lead % 16 * 4096 + tailBits c * 64 + tailBits d)) 2
  else if lead < 245 then
    match rest with
    | [] => .broken .endOfData 0
    | [c] => if secondFits lead c then .broken .endOfData 1 else .broken .continuation 0
    | [c, d] =>
      if !secondFits lead c then .broken .continuation 0
      else if !isTail d then .broken .continuation 1
      else .broken .endOfData 2
    | c :: d :: e :: _ =>
      if !secondFits lead c then .broken .continuation 0
      else if !isTail d then .broken .continuation 1
      else if !isTail e then .broken .continuation 2
      else
        .char (Char.ofNat (lead % 8 * 262144 + tailBits c * 4096 + tailBits d * 64 + tailBits e)) 3
  else .broken .startByte 0

def replacement : Char := Char.ofNat 0xFFFD

def decodeLenient : List UInt8 → List Char
  | [] => []
  | b :: rest =>
    match front b rest with
    | .char c more => c :: decodeLenient (rest.drop more)
    | .broken _ more => replacement :: decodeLenient (rest.drop more)
termination_by bytes => bytes.length
decreasing_by all_goals simp only [List.length_cons, List.length_drop]; omega

structure Broken where
  position : Nat
  piece : List UInt8
  why : Fault

def byteText (b : UInt8) : String := "0x" ++ String.ofList (Hex.fixed .lower 2 b.toNat)

def Broken.message (e : Broken) : String :=
  let place :=
    match e.piece with
    | [b] => s!"byte {byteText b} in position {e.position}"
    | piece => s!"bytes in position {e.position}-{e.position + piece.length - 1}"
  s!"'utf-8' codec can't decode {place}: {e.why.message}"

def decodeAt (position : Nat) : List UInt8 → Except Broken (List Char)
  | [] => .ok []
  | b :: rest =>
    match front b rest with
    | .char c more => (decodeAt (position + 1 + more) (rest.drop more)).map (c :: ·)
    | .broken why more => .error ⟨position, b :: rest.take more, why⟩
termination_by bytes => bytes.length
decreasing_by simp only [List.length_cons, List.length_drop]; omega

def decode (bytes : List UInt8) : Except Broken (List Char) := decodeAt 0 bytes

end ModuleStubs.Text.Utf8
