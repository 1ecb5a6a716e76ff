namespace VmAdmission.Punycode

def digit (d : Nat) : Char :=
  if d < 26 then Char.ofNat (0x61 + d) else Char.ofNat (0x30 + (d - 26))

/-- A digit below this one ends a number; places are counted in steps of 36. -/
def threshold (bias place : Nat) : Nat :=
  max 1 (min 26 (place - bias))

def numberFrom (bias place n : Nat) : List Char :=
  let t := threshold bias place
  if n < t then [digit n]
  else digit (t + (n - t) % (36 - t)) :: numberFrom bias (place + 36) ((n - t) / (36 - t))
termination_by n
decreasing_by
  have pos : 1 ≤ threshold bias place := Nat.le_max_left ..
  have le := Nat.div_le_self (n - threshold bias place) (36 - threshold bias place)
  omega

/-- The bias after a number, given what is left of it and the bias gathered so far. -/
def biasFrom (gathered n : Nat) : Nat :=
  if 455 < n then biasFrom (gathered + 36) (n / 35) else gathered + 36 * n / (n + 38)
termination_by n
decreasing_by omega

/-- The bias after a number of steps; the text has `count` characters then. -/
def nextBias (steps count : Nat) (first : Bool) : Nat :=
  let n := steps / if first then 700 else 2
  biasFrom 0 (n + n / count)

structure Writer where
  /-- The numbers written so far. -/
  written : List Char := []
  /-- The steps since the last of them. -/
  steps : Nat := 0
  bias : Nat := 72
  /-- The number of characters written in either way. -/
  count : Nat
  first : Bool := true

namespace Writer

/-- Goes over a character of the text in search of one code. -/
def visit (code : Nat) (w : Writer) (c : Char) : Writer :=
  if c.toNat < code then { w with steps := w.steps + 1 }
  else if c.toNat = code then
    { written := w.written ++ numberFrom w.bias 36 w.steps
      steps := 0
      bias := nextBias w.steps (w.count + 1) w.first
      count := w.count + 1
      first := false }
  else w

/-- Writes all characters of each code; the writer stands at a code not above the first. -/
def writeCodes (text : List Char) : Nat → List Nat → Writer → Writer
  | _, [], w => w
  | code₀, code :: codes, w =>
    let w := { w with steps := w.steps + (code - code₀) * (w.count + 1) }
    let w := text.foldl (visit code) w
    writeCodes text (code + 1) codes { w with steps := w.steps + 1 }

end Writer

def isBasic (c : Char) : Bool :=
  c.toNat < 0x80

/-- The written form of a text: its characters of ASCII, then the others in the order of their
codes, each as a number that says how many steps it is from the one before. A step is a next place
in the text or, after the last place, the next code. -/
def encode (text : List Char) : List Char :=
  let basic := text.filter isBasic
  let codes := (((text.filter fun c => !isBasic c).map Char.toNat).mergeSort).eraseDups
  let w := Writer.writeCodes text 0x80 codes { count := basic.length }
  (if basic.isEmpty then [] else basic ++ ['-']) ++ w.written

end VmAdmission.Punycode
