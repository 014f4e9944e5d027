/-!
# Inflation of deflated data

Decoding of a raw deflate stream. The stream is read by bit position; every loop is bounded by the
number of bits, since each of its turns reads at least one.

A stream that breaks a rule of the format is `corrupt`, one that stops before its last block ends is
`incomplete`. Bytes after the last block are ignored. A copy that reaches back before the first byte
of output finds zeros there, as in a window that starts out blank.
-/

namespace ClassViewer.Archive.Inflate

/-- Why a stream cannot be decoded. -/
inductive Defect where
  | corrupt
  | incomplete
  deriving DecidableEq, Repr

/-! ## Bits -/

/-- The bit at position `p`, and the next position. -/
def bit (data : ByteArray) (p : Nat) : Except Defect (Nat × Nat) :=
  if p / 8 < data.size then
    .ok (((data.get! (p / 8)).toNat >>> (p % 8)) % 2, p + 1)
  else .error .incomplete

/-- The number in the next `n` bits, least significant first. -/
def bits (data : ByteArray) : Nat → Nat → Except Defect (Nat × Nat)
  | 0, p => .ok (0, p)
  | n + 1, p => do
    let (b, p) ← bit data p
    let (v, p) ← bits data n p
    .ok (b + 2 * v, p)

/-! ## Prefix codes -/

/-- A canonical prefix code: how many codes there are of each length, the symbols in the order of
their codes, and the length of the longest. -/
structure Code where
  counts : Array Nat
  symbols : Array Nat
  longest : Nat

/-- The longest code length. -/
def maxLength : Nat := 15

/-- Which share of all bit strings a code has to use. -/
inductive Coverage where
  /-- Every bit string begins with a code. -/
  | full
  /-- The same, but the code may also have no symbol, or one symbol with the code `0`. -/
  | fullOrTrivial
  deriving DecidableEq

/-- The code with the given length for each symbol; zero means that the symbol has no code. -/
def Code.ofLengths (coverage : Coverage) (lengths : List Nat) : Except Defect Code :=
  let counts := (List.range (maxLength + 1)).map fun n => if n = 0 then 0 else lengths.count n
  let used := counts.foldl (· + ·) 0
  let filled := (List.range (maxLength + 1)).foldl
    (fun acc n => acc + counts.getD n 0 <<< (maxLength - n)) 0
  let trivial := used = 0 ∨ used = 1 ∧ counts.getD 1 0 = 1
  if filled = 1 <<< maxLength ∨ coverage = .fullOrTrivial ∧ trivial then
    let indexed := lengths.zipIdx
    let symbols := (List.range maxLength).flatMap fun n =>
      (indexed.filter fun e => e.1 = n + 1).map (·.2)
    .ok ⟨counts.toArray, symbols.toArray, lengths.foldl max 0⟩
  else .error .corrupt

/-- Reads the bits of one symbol. `left` lengths remain to be tried after `len`; `code` holds the
bits read, `first` the first code of the length and `index` the place of its symbol. -/
def Code.decodeFrom (c : Code) (data : ByteArray) :
    Nat → Nat → Nat → Nat → Nat → Nat → Except Defect (Nat × Nat)
  | 0, _, _, _, _, _ => .error .corrupt
  | left + 1, len, code, first, index, p => do
    let (b, p) ← bit data p
    let code := code + b
    let count := c.counts.getD len 0
    if code < first + count then
      .ok (c.symbols.getD (index + (code - first)) 0, p)
    else
      decodeFrom c data left (len + 1) (2 * code) (2 * (first + count)) (index + count) p

/-- Reads one symbol. Bits that begin no code are noticed once the longest code is behind, and one
bit is read in any case. -/
def Code.decode (c : Code) (data : ByteArray) (p : Nat) : Except Defect (Nat × Nat) :=
  c.decodeFrom data (max 1 c.longest) 1 0 0 0 p

/-! ## Tables of the format -/

/-- The least length that each length code stands for. -/
def lengthBase : Array Nat :=
  #[3, 4, 5, 6, 7, 8, 9, 10, 11, 13, 15, 17, 19, 23, 27, 31, 35, 43, 51, 59, 67, 83, 99, 115, 131,
    163, 195, 227, 258]

/-- The number of extra bits behind each length code. -/
def lengthExtra : Array Nat :=
  #[0, 0, 0, 0, 0, 0, 0, 0, 1, 1, 1, 1, 2, 2, 2, 2, 3, 3, 3, 3, 4, 4, 4, 4, 5, 5, 5, 5, 0]

/-- The least distance that each distance code stands for. -/
def distanceBase : Array Nat :=
  #[1, 2, 3, 4, 5, 7, 9, 13, 17, 25, 33, 49, 65, 97, 129, 193, 257, 385, 513, 769, 1025, 1537, 2049,
    3073, 4097, 6145, 8193, 12289, 16385, 24577]

/-- The number of extra bits behind each distance code. -/
def distanceExtra : Array Nat :=
  #[0, 0, 0, 0, 1, 1, 2, 2, 3, 3, 4, 4, 5, 5, 6, 6, 7, 7, 8, 8, 9, 9, 10, 10, 11, 11, 12, 12, 13,
    13]

/-- The order in which the lengths of the code-length code are written. -/
def lengthOrder : List Nat := [16, 17, 18, 0, 8, 7, 9, 6, 10, 5, 11, 4, 12, 3, 13, 2, 14, 1, 15]

/-- The code lengths of literals and lengths in a block with the fixed code. -/
def fixedLiteralLengths : List Nat :=
  List.replicate 144 8 ++ List.replicate 112 9 ++ List.replicate 24 7 ++ List.replicate 8 8

/-- The code lengths of distances in a block with the fixed code. -/
def fixedDistanceLengths : List Nat := List.replicate 32 5

/-! ## Blocks -/

/-- Appends `n` bytes copied from `distance` bytes back. -/
def copyBack (distance : Nat) : Nat → ByteArray → ByteArray
  | 0, out => out
  | n + 1, out =>
    let b := if distance ≤ out.size then out.get! (out.size - distance) else 0
    copyBack distance n (out.push b)

/-- Decodes the symbols of a block up to its end; `fuel` bounds their number. -/
def symbols (literals distances : Code) (data : ByteArray) :
    Nat → Nat → ByteArray → Except Defect (ByteArray × Nat)
  | 0, _, _ => .error .incomplete
  | fuel + 1, p, out => do
    let (s, p) ← literals.decode data p
    if s < 256 then symbols literals distances data fuel p (out.push s.toUInt8)
    else if s = 256 then .ok (out, p)
    else if s - 257 < lengthBase.size then
      let (e, p) ← bits data (lengthExtra.getD (s - 257) 0) p
      let length := lengthBase.getD (s - 257) 0 + e
      let (d, p) ← distances.decode data p
      if d < distanceBase.size then
        let (e, p) ← bits data (distanceExtra.getD d 0) p
        symbols literals distances data fuel p
          (copyBack (distanceBase.getD d 0 + e) length out)
      else .error .corrupt
    else .error .corrupt

/-- Reads `total` code lengths written with the code-length code, last one first in `acc`. -/
def codeLengths (c : Code) (data : ByteArray) (total : Nat) :
    Nat → Nat → List Nat → Except Defect (List Nat × Nat)
  | 0, _, _ => .error .incomplete
  | fuel + 1, p, acc => do
    if acc.length > total then .error .corrupt
    else if acc.length = total then .ok (acc.reverse, p)
    else
      let (s, p) ← c.decode data p
      if s < 16 then codeLengths c data total fuel p (s :: acc)
      else if s = 16 then
        match acc with
        | [] => .error .corrupt
        | last :: _ =>
          let (r, p) ← bits data 2 p
          codeLengths c data total fuel p (List.replicate (3 + r) last ++ acc)
      else if s = 17 then
        let (r, p) ← bits data 3 p
        codeLengths c data total fuel p (List.replicate (3 + r) 0 ++ acc)
      else
        let (r, p) ← bits data 7 p
        codeLengths c data total fuel p (List.replicate (11 + r) 0 ++ acc)

/-- Reads the three-bit lengths of the first `n` symbols in `lengthOrder`. -/
def orderedLengths (data : ByteArray) : Nat → Nat → Except Defect (List Nat × Nat)
  | 0, p => .ok ([], p)
  | n + 1, p => do
    let (v, p) ← bits data 3 p
    let (vs, p) ← orderedLengths data n p
    .ok (v :: vs, p)

/-- The two codes at the beginning of a block that brings its own. -/
def dynamicCodes (data : ByteArray) (p : Nat) : Except Defect (Code × Code × Nat) := do
  let (nl, p) ← bits data 5 p
  let (nd, p) ← bits data 5 p
  let (nc, p) ← bits data 4 p
  let literalCount := nl + 257
  let distanceCount := nd + 1
  if literalCount > 286 ∨ distanceCount > 30 then .error .corrupt
  else
    let (ordered, p) ← orderedLengths data (nc + 4) p
    let pairs := lengthOrder.zip ordered
    let lengths := (List.range 19).map fun s => ((pairs.find? fun e => e.1 = s).map (·.2)).getD 0
    let code ← Code.ofLengths .full lengths
    let (all, p) ← codeLengths code data (literalCount + distanceCount)
      (literalCount + distanceCount + 1) p []
    let literals ← Code.ofLengths .fullOrTrivial (all.take literalCount)
    let distances ← Code.ofLengths .fullOrTrivial (all.drop literalCount)
    .ok (literals, distances, p)

/-- Copies a stored block. -/
def stored (data : ByteArray) (p : Nat) (out : ByteArray) : Except Defect (ByteArray × Nat) := do
  let start := (p + 7) / 8 * 8
  let (len, p) ← bits data 16 start
  let (check, p) ← bits data 16 p
  if len + check ≠ 0xFFFF then .error .corrupt
  else
    let first := p / 8
    if first + len ≤ data.size then .ok (out ++ data.extract first (first + len), p + 8 * len)
    else .error .incomplete

/-- Decodes blocks up to and including the last; `fuel` bounds their number. -/
def blocks (data : ByteArray) : Nat → Nat → ByteArray → Except Defect ByteArray
  | 0, _, _ => .error .incomplete
  | fuel + 1, p, out => do
    let (last, p) ← bits data 1 p
    let (kind, p) ← bits data 2 p
    let (out, p) ← match kind with
      | 0 => stored data p out
      | 1 => do
        let literals ← Code.ofLengths .full fixedLiteralLengths
        let distances ← Code.ofLengths .full fixedDistanceLengths
        symbols literals distances data (8 * data.size + 1) p out
      | 2 => do
        let (literals, distances, p) ← dynamicCodes data p
        symbols literals distances data (8 * data.size + 1) p out
      | _ => .error .corrupt
    if last = 1 then .ok out else blocks data fuel p out

/-- The data of a raw deflate stream. -/
def inflate (data : ByteArray) : Except Defect ByteArray :=
  blocks data (8 * data.size + 1) 0 ByteArray.empty

end ClassViewer.Archive.Inflate
