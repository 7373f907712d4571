import ApiContract.Text.Split

/-!
# Punycode

Labels of domain names with characters beyond ASCII, written with ASCII characters only.
-/

namespace ApiContract.Punycode

/-- How the bias adapts after each character. -/
def adapt (delta points : Nat) (isFirst : Bool) : Nat :=
  let delta := if isFirst then delta / 700 else delta / 2
  reduce 32 (delta + delta / points) 0
where
  reduce : Nat → Nat → Nat → Nat
    | 0, delta, k => k + 36 * delta / (delta + 38)
    | fuel + 1, delta, k =>
      if 455 < delta then reduce fuel (delta / 35) (k + 36)
      else k + 36 * delta / (delta + 38)

/-- The threshold of a digit place. -/
def threshold (k bias : Nat) : Nat := if k ≤ bias then 1 else min 26 (k - bias)

def digitChar (n : Nat) : Char := Char.ofNat (if n < 26 then 'a'.toNat + n else '0'.toNat + n - 26)

def digit? (c : Char) : Option Nat :=
  if 'a' ≤ c && c ≤ 'z' then some (c.toNat - 'a'.toNat)
  else if 'A' ≤ c && c ≤ 'Z' then some (c.toNat - 'A'.toNat)
  else if '0' ≤ c && c ≤ '9' then some (c.toNat - '0'.toNat + 26)
  else none

/-- A number in digits of varying weight. -/
def variableDigits (bias : Nat) : Nat → Nat → Nat → List Char
  | 0, _, _ => []
  | fuel + 1, n, k =>
    let t := threshold k bias
    if n < t then [digitChar n]
    else
      digitChar (t + (n - t) % (36 - t)) ::
        variableDigits bias fuel ((n - t) / (36 - t)) (k + 36)

/-- The state of encoding: digits so far, the next delta, the bias and the points written. -/
structure Encoder where
  output : List Char
  delta : Nat
  bias : Nat
  written : Nat
  basic : Nat

/-- Writes every occurrence of the code point `n`, counting the smaller ones. -/
def encodePoint (codes : List Nat) (n : Nat) (state : Encoder) : Encoder :=
  codes.foldl (fun state c =>
    if c < n then { state with delta := state.delta + 1 }
    else if c = n then
      { state with
        output := state.output ++ variableDigits state.bias 40 state.delta 36
        bias := adapt state.delta (state.written + 1) (state.written == state.basic)
        delta := 0
        written := state.written + 1 }
    else state) state

/-- The ASCII form of a label, without the mark in front. -/
def encode (label : List Char) : List Char :=
  let codes := label.map Char.toNat
  let basic := label.filter fun c => c.toNat < 128
  let others := (codes.filter (128 ≤ ·)).mergeSort.eraseDups
  let start : Encoder :=
    { output := if basic.isEmpty then [] else basic ++ ['-']
      delta := 0, bias := 72, written := basic.length, basic := basic.length }
  let (state, _) := others.foldl (fun (state, next) n =>
    let skipped := { state with delta := state.delta + (n - next) * (state.written + 1) }
    let state := encodePoint codes n skipped
    ({ state with delta := state.delta + 1 }, n + 1)) (start, 128)
  state.output

/-- A number read from digits of varying weight. -/
def readDigits (bias : Nat) : List Char → (i w k : Nat) → Option (Nat × List Char)
  | [], _, _, _ => none
  | c :: rest, i, w, k =>
    match digit? c with
    | none => none
    | some digit =>
      let i := i + digit * w
      let t := threshold k bias
      if digit < t then some (i, rest) else readDigits bias rest i (w * (36 - t)) (k + 36)

def decodeFrom : Nat → List Char → List Nat → (n i bias : Nat) → Option (List Nat)
  | 0, _, _, _, _, _ => none
  | _, [], output, _, _, _ => some output
  | fuel + 1, text, output, n, i, bias =>
    match readDigits bias text i 1 36 with
    | none => none
    | some (reached, rest) =>
      let points := output.length + 1
      let code := n + reached / points
      let position := reached % points
      if code < 0xD800 || (0xE000 ≤ code && code ≤ 0x10FFFF) then
        decodeFrom fuel rest (output.take position ++ code :: output.drop position) code
          (position + 1) (adapt (reached - i) points (i == 0 && output.all (· < 128)))
      else none

/-- The label that an ASCII form, without the mark in front, stands for. -/
def decode? (text : List Char) : Option (List Char) :=
  let (basic, rest) := (Text.splitLast? '-' text).getD ([], text)
  if basic.all fun c => c.toNat < 128 then
    (decodeFrom (text.length + 1) rest (basic.map Char.toNat) 128 0 72).map fun codes =>
      codes.map Char.ofNat
  else none

end ApiContract.Punycode
