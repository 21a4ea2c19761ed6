import Mathlib.Data.List.DropRight
import TwinVoice.Lib.FloatFormat

/-! # Arithmetic and decimal text of floating-point numbers

Sums, products and quotients are those of the exact values, rounded by the
format. The text of a number is that of `format`: whole (`.0f`), with one
decimal (`.1f`), or of six significant digits without trailing zeros (`g`). -/

namespace TwinVoice.Lib

namespace Number

/-- The exact value, and the sign that a zero has. -/
def ofRat (negativeZero : Bool) (q : Rat) : Number :=
  .finite (decide (q < 0) || (decide (q = 0) && negativeZero)) q.nnabs

def value (negative : Bool) (x : ℚ≥0) : Rat := if negative then -x else x

def neg : Number → Number
  | .nan => .nan
  | .infinite s => .infinite !s
  | .finite s x => .finite (!s) x

def abs : Number → Number
  | .nan => .nan
  | .infinite _ => .infinite false
  | .finite _ x => .finite false x

def add : Number → Number → Number
  | .nan, _ => .nan
  | _, .nan => .nan
  | .infinite s, .infinite t => if s = t then .infinite s else .nan
  | .infinite s, .finite _ _ => .infinite s
  | .finite _ _, .infinite t => .infinite t
  | .finite s x, .finite t y => ofRat (s && t) (value s x + value t y)

def mul : Number → Number → Number
  | .nan, _ => .nan
  | _, .nan => .nan
  | .infinite s, .infinite t => .infinite (s ^^ t)
  | .infinite s, .finite t y => if y = 0 then .nan else .infinite (s ^^ t)
  | .finite s x, .infinite t => if x = 0 then .nan else .infinite (s ^^ t)
  | .finite s x, .finite t y => .finite (s ^^ t) (x * y)

def div : Number → Number → Number
  | .nan, _ => .nan
  | _, .nan => .nan
  | .infinite _, .infinite _ => .nan
  | .infinite s, .finite t _ => .infinite (s ^^ t)
  | .finite s _, .infinite t => .finite (s ^^ t) 0
  | .finite s x, .finite t y =>
    if y ≠ 0 then .finite (s ^^ t) (x / y) else if x = 0 then .nan else .infinite (s ^^ t)

/-- `x < y`, which does not hold of what is not a number. -/
def lt : Number → Number → Bool
  | .nan, _ => false
  | _, .nan => false
  | .infinite s, .infinite t => s && !t
  | .infinite s, .finite _ _ => s
  | .finite _ _, .infinite t => !t
  | .finite s x, .finite t y => value s x < value t y

/-- `x == y`. -/
def eq : Number → Number → Bool
  | .infinite s, .infinite t => s = t
  | .finite s x, .finite t y => value s x = value t y
  | _, _ => false

/-! ## Text -/

def signText (negative : Bool) : String := if negative then "-" else ""

/-- `format(x, ".0f")`. -/
def wholeText : Number → String
  | .nan => "nan"
  | .infinite s => signText s ++ "inf"
  | .finite s x => signText s ++ toString (roundToEven x)

/-- `format(x, ".1f")`. -/
def tenthsText : Number → String
  | .nan => "nan"
  | .infinite s => signText s ++ "inf"
  | .finite s x =>
    let tenths := roundToEven (x * (10 : Nat))
    signText s ++ toString (tenths / 10) ++ "." ++ toString (tenths % 10)

/-- Six significant digits and the exponent of the first. -/
def sixDigits (x : ℚ≥0) : Nat × Int :=
  let e := Int.log 10 x
  let n := roundToEven (x / ((10 : Nat) : ℚ≥0) ^ (e - 5))
  if n = 10 ^ 6 then (10 ^ 5, e + 1) else (n, e)

/-- A decimal fraction, of which no zeros are left at the end. -/
def pointText (whole fraction : List Char) : List Char :=
  let kept := fraction.rdropWhile (· = '0')
  if kept = [] then whole else whole ++ '.' :: kept

def exponentText (e : Int) : List Char :=
  let digits := Nat.toDigits 10 e.natAbs
  'e' :: (if e < 0 then '-' else '+') :: (if digits.length < 2 then '0' :: digits else digits)

def magnitudeText (x : ℚ≥0) : List Char :=
  if x = 0 then ['0']
  else
    let (n, e) := sixDigits x
    let digits := Nat.toDigits 10 n
    if e < -4 ∨ 6 ≤ e then pointText (digits.take 1) (digits.drop 1) ++ exponentText e
    else if 0 ≤ e then pointText (digits.take (e.toNat + 1)) (digits.drop (e.toNat + 1))
    else pointText ['0'] (List.replicate (-e - 1).toNat '0' ++ digits)

/-- `format(x, "g")`. -/
def generalText : Number → String
  | .nan => "nan"
  | .infinite s => signText s ++ "inf"
  | .finite s x => signText s ++ String.ofList (magnitudeText x)

/-- The characters of a number's text. -/
def textual (c : Char) : Bool := c.isDigit || c ∈ ['.', '+', '-', 'e', 'n', 'a', 'i', 'f']

theorem textual_of_isDigit {c : Char} (h : c.isDigit = true) : textual c = true := by simp [textual, h]

theorem textual_toDigits {n : Nat} {c : Char} (h : c ∈ Nat.toDigits 10 n) : textual c = true :=
  textual_of_isDigit (Nat.isDigit_of_mem_toDigits (by decide) (by decide) h)

theorem textual_pointText {whole fraction : List Char} (hwhole : ∀ c ∈ whole, textual c = true)
    (hfraction : ∀ c ∈ fraction, textual c = true) : ∀ c ∈ pointText whole fraction, textual c = true := by
  intro c hc
  unfold pointText at hc
  dsimp only at hc
  split at hc
  · exact hwhole c hc
  · rcases List.mem_append.mp hc with hc | hc
    · exact hwhole c hc
    · rcases List.mem_cons.mp hc with rfl | hc
      · decide
      · exact hfraction c ((List.rdropWhile_prefix _ fraction).subset hc)

theorem textual_exponentText (e : Int) : ∀ c ∈ exponentText e, textual c = true := by
  intro c hc
  have hdigits : ∀ d ∈ Nat.toDigits 10 e.natAbs, textual d = true := fun d hd => textual_toDigits hd
  simp only [exponentText, List.mem_cons] at hc
  rcases hc with rfl | hsign | hc
  · decide
  · split at hsign
    · rw [hsign]
      decide
    · rw [hsign]
      decide
  · split at hc
    · rcases List.mem_cons.mp hc with rfl | hc
      · decide
      · exact hdigits c hc
    · exact hdigits c hc

theorem textual_magnitudeText (x : ℚ≥0) : ∀ c ∈ magnitudeText x, textual c = true := by
  intro c hc
  have hdigits : ∀ d ∈ Nat.toDigits 10 (sixDigits x).1, textual d = true := fun d hd => textual_toDigits hd
  unfold magnitudeText at hc
  split at hc
  · rw [List.mem_singleton.mp hc]
    decide
  · dsimp only at hc
    split at hc
    · rcases List.mem_append.mp hc with hc | hc
      · exact textual_pointText (fun d hd => hdigits d (List.mem_of_mem_take hd))
          (fun d hd => hdigits d (List.mem_of_mem_drop hd)) c hc
      · exact textual_exponentText _ c hc
    · split at hc
      · exact textual_pointText (fun d hd => hdigits d (List.mem_of_mem_take hd))
          (fun d hd => hdigits d (List.mem_of_mem_drop hd)) c hc
      · refine textual_pointText (fun d hd => ?_) (fun d hd => ?_) c hc
        · rw [List.mem_singleton.mp hd]
          decide
        · rcases List.mem_append.mp hd with hd | hd
          · rw [List.eq_of_mem_replicate hd]
            decide
          · exact hdigits d hd

theorem textual_signed (s : Bool) {t : String} (h : ∀ c ∈ t.toList, textual c = true) :
    ∀ c ∈ (signText s ++ t).toList, textual c = true := by
  intro c hc
  rw [String.toList_append] at hc
  rcases List.mem_append.mp hc with hc | hc
  · cases s with
    | false => exact absurd hc List.not_mem_nil
    | true =>
      rw [List.mem_singleton.mp hc]
      decide
  · exact h c hc

theorem textual_generalText (x : Number) : ∀ c ∈ x.generalText.toList, textual c = true := by
  cases x with
  | nan => exact List.all_eq_true.mp (by decide)
  | infinite s => exact textual_signed s (List.all_eq_true.mp (by decide))
  | finite s x =>
    refine textual_signed s ?_
    rw [String.toList_ofList]
    exact textual_magnitudeText x

theorem textual_wholeText (x : Number) : ∀ c ∈ x.wholeText.toList, textual c = true := by
  cases x with
  | nan => exact List.all_eq_true.mp (by decide)
  | infinite s => exact textual_signed s (List.all_eq_true.mp (by decide))
  | finite s x =>
    refine textual_signed s fun c hc => ?_
    rw [Nat.toString_eq_ofList_toDigits, String.toList_ofList] at hc
    exact textual_toDigits hc

end Number

/-! ## Of a format -/

namespace Floating
variable {f : FloatFormat}

instance decidableEqFloating : DecidableEq (Floating f) := fun x y =>
  decidable_of_iff (x.number = y.number) ⟨Floating.ext, congrArg Floating.number⟩

def ofRat (f : FloatFormat) (q : Rat) : Floating f := ofNumber f (Number.ofRat false q)

def abs (x : Floating f) : Floating f := ofNumber f x.number.abs

def neg (x : Floating f) : Floating f := ofNumber f x.number.neg

def sub (x y : Floating f) : Floating f := ofNumber f (x.number.add y.number.neg)

def mul (x y : Floating f) : Floating f := ofNumber f (x.number.mul y.number)

def div (x y : Floating f) : Floating f := ofNumber f (x.number.div y.number)

def lt (x y : Floating f) : Bool := x.number.lt y.number

def eq (x y : Floating f) : Bool := x.number.eq y.number

def le (x y : Floating f) : Bool := x.lt y || x.eq y

/-- `round(x, d)`. -/
def roundTo (d : Nat) (x : Floating f) : Floating f :=
  match x.number with
  | .finite s m => ofNumber f (.finite s (roundToEven (m * (10 ^ d : Nat)) / (10 ^ d : Nat)))
  | _ => x

end Floating

end TwinVoice.Lib
