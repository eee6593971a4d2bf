import Mathlib.Data.Nat.Digits.Defs
import Mathlib.Data.List.TakeWhile

/-! Text conversions of the C library on character strings: the digits
`printf` writes for an unsigned number, the conversions of `sscanf`, `strtol`
and `strtok_r`, and what POSIX asks of `inet_ntop` and `inet_pton`. Each reader
has a lemma in the form `read (printed ++ rest) = some (value, rest)` for a
`rest` that stops it, so that a format of several conversions is read back one
conversion at a time. -/
namespace CText

section Digits

/-- `isspace` in the "C" locale. -/
def isSpace (c : Char) : Bool :=
  c == ' ' || c == '\t' || c == '\n' || c == '\x0b' || c == '\x0c' || c == '\r'

/-- The value `strtol` gives `c` as a digit: `0`-`9`, then `a`-`z` and `A`-`Z`
from ten on. -/
def charVal (c : Char) : Option Nat :=
  if '0' ≤ c ∧ c ≤ '9' then some (c.toNat - '0'.toNat)
  else if 'a' ≤ c ∧ c ≤ 'z' then some (c.toNat - 'a'.toNat + 10)
  else if 'A' ≤ c ∧ c ≤ 'Z' then some (c.toNat - 'A'.toNat + 10)
  else none

/-- `c` is a digit in base `base`. -/
def isDigitOf (base : Nat) (c : Char) : Bool :=
  match charVal c with
  | some d => decide (d < base)
  | none => false

/-- The value of a run of digits, the most significant first. -/
def digitsValue (base : Nat) (digits : List Char) : Nat :=
  digits.foldl (fun acc c => acc * base + (charVal c).getD 0) 0

theorem charVal_digitChar {d : Nat} (small : d < 16) : charVal (Nat.digitChar d) = some d := by
  have table : ∀ d < 16, charVal (Nat.digitChar d) = some d := by decide
  exact table d small

theorem isDigitOf_digitChar {base d : Nat} (digit : d < base) (upTo : base ≤ 16) :
    isDigitOf base (Nat.digitChar d) = true := by
  simp [isDigitOf, charVal_digitChar (Nat.lt_of_lt_of_le digit upTo), digit]

theorem isDigitOf_of_charVal_none {base : Nat} {c : Char} (none : charVal c = none) :
    isDigitOf base c = false := by
  simp [isDigitOf, none]

theorem charVal_of_isSpace {c : Char} (space : isSpace c = true) : charVal c = none := by
  simp only [isSpace, Bool.or_eq_true, beq_iff_eq] at space
  rcases space with (((((rfl | rfl) | rfl) | rfl) | rfl) | rfl) <;> rfl

theorem isSpace_of_isDigitOf {base : Nat} {c : Char} (digit : isDigitOf base c = true) :
    isSpace c = false := by
  cases space : isSpace c
  · rfl
  · rw [isDigitOf_of_charVal_none (charVal_of_isSpace space)] at digit
    cases digit

theorem digitsValue_append_singleton (base : Nat) (digits : List Char) (c : Char) :
    digitsValue base (digits ++ [c]) = digitsValue base digits * base + (charVal c).getD 0 := by
  simp [digitsValue, List.foldl_append]

theorem digitsValue_replicate_zero_append (base k : Nat) (digits : List Char) :
    digitsValue base (List.replicate k '0' ++ digits) = digitsValue base digits := by
  have zeros : ∀ k, (List.replicate k '0').foldl (fun acc c => acc * base + (charVal c).getD 0) 0 = 0 := by
    intro k
    induction k with
    | zero => rfl
    | succ k ih =>
      rw [List.replicate_succ, List.foldl_cons]
      simpa [charVal] using ih
  simp only [digitsValue, List.foldl_append, zeros]

section Printed

variable {base : Nat} (several : 1 < base) (upTo : base ≤ 16)
include several upTo

/-- Reading the digits `printf` wrote gives the number back. The induction
follows `Nat.toDigits`: the last digit is `n % base`, the others print
`n / base`. -/
theorem digitsValue_toDigits (n : Nat) : digitsValue base (Nat.toDigits base n) = n := by
  induction n using Nat.strong_induction_on with
  | _ n ih =>
    rcases Nat.lt_or_ge n base with small | large
    · rw [Nat.toDigits_of_lt_base small]
      simp [digitsValue, charVal_digitChar (Nat.lt_of_lt_of_le small upTo)]
    · have last : n % base < 16 := Nat.lt_of_lt_of_le (Nat.mod_lt n (by omega)) upTo
      rw [Nat.toDigits_of_base_le several large, digitsValue_append_singleton,
        ih (n / base) (Nat.div_lt_self (by omega) several), charVal_digitChar last]
      exact Nat.div_add_mod' n base

theorem isDigitOf_of_mem_toDigits (n : Nat) : ∀ c ∈ Nat.toDigits base n, isDigitOf base c = true := by
  induction n using Nat.strong_induction_on with
  | _ n ih =>
    rcases Nat.lt_or_ge n base with small | large
    · rw [Nat.toDigits_of_lt_base small]
      simpa using isDigitOf_digitChar small upTo
    · rw [Nat.toDigits_of_base_le several large]
      intro c member
      rcases List.mem_append.mp member with front | last
      · exact ih (n / base) (Nat.div_lt_self (by omega) several) c front
      · rw [List.mem_singleton.mp last]
        exact isDigitOf_digitChar (Nat.mod_lt n (by omega)) upTo

end Printed

end Digits

section Spans

variable {p : Char → Bool} {body rest : List Char}

theorem takeWhile_stop (inside : ∀ c ∈ body, p c = true) (stop : ∀ c ∈ rest.head?, p c = false) :
    (body ++ rest).takeWhile p = body := by
  rw [List.takeWhile_append_of_pos inside]
  cases rest with
  | nil => simp
  | cons c rest => simp [stop c rfl]

theorem dropWhile_stop (inside : ∀ c ∈ body, p c = true) (stop : ∀ c ∈ rest.head?, p c = false) :
    (body ++ rest).dropWhile p = rest := by
  rw [List.dropWhile_append_of_pos inside]
  cases rest with
  | nil => rfl
  | cons c rest => simp [stop c rfl]

theorem dropWhile_of_head (first : ∀ c ∈ body.head?, p c = false) : body.dropWhile p = body := by
  cases body with
  | nil => rfl
  | cons c body => simp [first c rfl]

end Spans

section Integers

/-- The sign at the front of a subject sequence, if there is one. -/
def sign : List Char → Bool × List Char
  | '-' :: s => (true, s)
  | '+' :: s => (false, s)
  | s => (false, s)

/-- The base a subject sequence is read in after its sign, and where its
digits start. In base 16 a `0x` or `0X` followed by a hex digit is skipped;
base 0 takes 16 there, 8 after another leading `0` and 10 otherwise. -/
def radix (base : Nat) (s : List Char) : Nat × List Char :=
  match s with
  | '0' :: x :: c :: t =>
    if (x == 'x' || x == 'X') && isDigitOf 16 c && (base == 0 || base == 16) then (16, c :: t)
    else (if base = 0 then 8 else base, s)
  | '0' :: _ => (if base = 0 then 8 else base, s)
  | _ => (if base = 0 then 10 else base, s)

/-- The subject sequence `strtol` and `strtoul` read at the front of `s`: white
space, a sign, a prefix and a nonempty run of digits. It gives whether the
sequence was negative, the value of its digits and what follows it, and
`none` when there is no digit. -/
def subject (base : Nat) (s : List Char) : Option (Bool × Nat × List Char) :=
  let (negative, unsigned) := sign (s.dropWhile isSpace)
  let (base, digits) := radix base unsigned
  let run := digits.takeWhile (isDigitOf base)
  if run = [] then none
  else some (negative, digitsValue base run, digits.dropWhile (isDigitOf base))

/-- `strtoul`'s value for a subject sequence: `ULONG_MAX` past the range of
`unsigned long`, the negation modulo `2^64` for a negative one. -/
def strtoulValue (negative : Bool) (magnitude : Nat) : Nat :=
  if 2 ^ 64 ≤ magnitude then 2 ^ 64 - 1
  else if negative then (2 ^ 64 - magnitude) % 2 ^ 64 else magnitude

/-- `strtol(s, &endptr, base)`: the value, clamped to `long`, and `endptr`,
which is `s` itself when no conversion is done. -/
def strtol (base : Nat) (s : List Char) : Int × List Char :=
  match subject base s with
  | some (negative, magnitude, rest) =>
    (if negative then max (-(magnitude : Int)) (-2 ^ 63) else min (magnitude : Int) (2 ^ 63 - 1), rest)
  | none => (0, s)

theorem radix_digits {base : Nat} {digits rest : List Char} (nonzero : base ≠ 0) (upTo : base ≤ 16)
    (inside : ∀ c ∈ digits, isDigitOf base c = true) (stop : ∀ c ∈ rest.head?, charVal c = none) :
    radix base (digits ++ rest) = (base, digits ++ rest) := by
  -- the prefix test looks at the second character, in the run or just after it
  have notX : ∀ x, x ∈ digits ++ rest.take 1 → (x == 'x' || x == 'X') = false := by
    intro x member
    rcases List.mem_append.mp member with run | next
    · have digit := inside x run
      cases xs : (x == 'x' || x == 'X')
      · rfl
      · simp only [Bool.or_eq_true, beq_iff_eq] at xs
        rcases xs with rfl | rfl <;> simp [isDigitOf, charVal] at digit <;> omega
    · cases rest with
      | nil => simp at next
      | cons c rest =>
        have : x = c := by simpa using next
        subst this
        have none := stop x rfl
        cases xs : (x == 'x' || x == 'X')
        · rfl
        · simp only [Bool.or_eq_true, beq_iff_eq] at xs
          rcases xs with rfl | rfl <;> simp [charVal] at none
  unfold radix
  split
  next x c t whole =>
    have second : x ∈ digits ++ rest.take 1 := by
      match digits, whole with
      | [], whole =>
        simp only [List.nil_append] at whole
        have none := stop '0' (by simp [whole])
        simp [charVal] at none
      | [d], whole =>
        simp only [List.cons_append, List.nil_append, List.cons.injEq] at whole
        obtain ⟨-, rfl⟩ := whole
        simp
      | d :: e :: ds, whole =>
        simp only [List.cons_append, List.cons.injEq] at whole
        obtain ⟨-, rfl, -⟩ := whole
        simp
    simp [notX x second, nonzero]
  all_goals simp [nonzero]

theorem subject_digits {base : Nat} {digits rest : List Char} (nonzero : base ≠ 0) (upTo : base ≤ 16)
    (nonempty : digits ≠ []) (inside : ∀ c ∈ digits, isDigitOf base c = true)
    (stop : ∀ c ∈ rest.head?, charVal c = none) :
    subject base (digits ++ rest) = some (false, digitsValue base digits, rest) := by
  obtain ⟨d, ds, rfl⟩ := List.exists_cons_of_ne_nil nonempty
  have first := inside d (by simp)
  have unsigned : sign (d :: ds ++ rest) = (false, d :: ds ++ rest) := by
    have value : charVal d ≠ none := by
      intro none
      rw [isDigitOf_of_charVal_none none] at first
      cases first
    unfold sign
    split
    next s same =>
      simp only [List.cons_append, List.cons.injEq] at same
      rw [same.1] at value
      exact absurd rfl value
    next s same =>
      simp only [List.cons_append, List.cons.injEq] at same
      rw [same.1] at value
      exact absurd rfl value
    all_goals rfl
  have stopDigit : ∀ c ∈ rest.head?, isDigitOf base c = false :=
    fun c head => isDigitOf_of_charVal_none (stop c head)
  have noSpace : (d :: ds ++ rest).dropWhile isSpace = d :: ds ++ rest :=
    dropWhile_of_head (by simpa using isSpace_of_isDigitOf first)
  simp only [subject, noSpace, unsigned, radix_digits nonzero upTo inside stop,
    takeWhile_stop inside stopDigit, dropWhile_stop inside stopDigit]
  simp

theorem strtol_hex (n : Nat) {rest : List Char} (stop : ∀ c ∈ rest.head?, charVal c = none) :
    strtol 0 ('0' :: 'x' :: (Nat.toDigits 16 n ++ rest)) = (min (n : Int) (2 ^ 63 - 1), rest) := by
  have inside := isDigitOf_of_mem_toDigits (by decide) le_rfl n
  obtain ⟨c, t, printed⟩ := List.exists_cons_of_ne_nil (Nat.toDigits_ne_nil (n := n) (b := 16))
  have prefixed : radix 0 ('0' :: 'x' :: (Nat.toDigits 16 n ++ rest)) = (16, Nat.toDigits 16 n ++ rest) := by
    rw [printed]
    simp [radix, inside c (by simp [printed])]
  have stopDigit : ∀ c ∈ rest.head?, isDigitOf 16 c = false :=
    fun c head => isDigitOf_of_charVal_none (stop c head)
  have noSpace : ('0' :: 'x' :: (Nat.toDigits 16 n ++ rest)).dropWhile isSpace =
      '0' :: 'x' :: (Nat.toDigits 16 n ++ rest) := rfl
  have unsigned : sign ('0' :: 'x' :: (Nat.toDigits 16 n ++ rest)) =
      (false, '0' :: 'x' :: (Nat.toDigits 16 n ++ rest)) := rfl
  have read : subject 0 ('0' :: 'x' :: (Nat.toDigits 16 n ++ rest)) = some (false, n, rest) := by
    simp only [subject, noSpace, unsigned, prefixed, takeWhile_stop inside stopDigit,
      dropWhile_stop inside stopDigit]
    simp [digitsValue_toDigits (by decide : 1 < 16) le_rfl, Nat.toDigits_ne_nil]
  simp [strtol, read]

theorem strtoulValue_of_lt {magnitude : Nat} (small : magnitude < 2 ^ 64) :
    strtoulValue false magnitude = magnitude := by
  rw [strtoulValue, if_neg (Nat.not_le.mpr small)]
  rfl

end Integers

section Printf

/-- `printf("%x", n)`: lowercase hex digits without leading zeros. -/
def fmtHex (n : Nat) : List Char := Nat.toDigits 16 n

def fmtDec (n : Nat) : List Char := Nat.toDigits 10 n

/-- `printf("%0*x", width, n)`: the hex digits of `n`, padded with zeros to `width`. -/
def fmtHexPadded (width n : Nat) : List Char :=
  List.replicate (width - (fmtHex n).length) '0' ++ fmtHex n

theorem fmtHex_ne_nil (n : Nat) : fmtHex n ≠ [] := Nat.toDigits_ne_nil

theorem fmtDec_ne_nil (n : Nat) : fmtDec n ≠ [] := Nat.toDigits_ne_nil

theorem isDigitOf_of_mem_fmtHex {n : Nat} {c : Char} (member : c ∈ fmtHex n) : isDigitOf 16 c = true :=
  isDigitOf_of_mem_toDigits (by decide) le_rfl n c member

theorem isDigitOf_of_mem_fmtDec {n : Nat} {c : Char} (member : c ∈ fmtDec n) : isDigitOf 10 c = true :=
  isDigitOf_of_mem_toDigits (by decide) (by decide) n c member

theorem fmtHex_injective {m n : Nat} (same : fmtHex m = fmtHex n) : m = n := by
  have values := congrArg (digitsValue 16) same
  rwa [fmtHex, fmtHex, digitsValue_toDigits (by decide) le_rfl,
    digitsValue_toDigits (by decide) le_rfl] at values

theorem length_fmtHex_le {n digits : Nat} (small : n < 16 ^ digits) (positive : 0 < digits) :
    (fmtHex n).length ≤ digits :=
  Nat.toDigits_length 16 n digits positive small

end Printf

section Scanf

/-- A conversion of a `scanf` format. -/
inductive Conv where
  /-- `%[set]`, or `%[^set]` when `negated`, of at most `width` characters. -/
  | scanset (negated : Bool) (set : List Char) (width : Option Nat)
  /-- `%s` of at most `width` characters. -/
  | string (width : Option Nat)
  /-- An integer in base `base` as `strtoul` reads it: `%x` in base 16, `%u` in base 10. -/
  | integer (base : Nat)
  deriving DecidableEq, Repr

/-- What a conversion read. -/
inductive Field where
  | text (chars : List Char)
  | number (negative : Bool) (magnitude : Nat)
  deriving DecidableEq, Repr

/-- A directive of a `scanf` format: an ordinary character, or a conversion
that is stored unless `%*` suppressed it. -/
inductive Directive where
  | literal (c : Char)
  | conv (c : Conv) (assign : Bool)
  deriving DecidableEq, Repr

/-- The ordinary characters of a format, in order. -/
def literals (chars : List Char) : List Directive := chars.map .literal

/-- The first `width` characters of a run, all of it without a width. -/
def bounded : Option Nat → List Char → List Char
  | some width, run => run.take width
  | none, run => run

/-- One conversion at the front of the input, and what is left; `none` is a
matching or input failure. -/
def Conv.read : Conv → List Char → Option (Field × List Char)
  | .scanset negated set width, s =>
    let run := bounded width (s.takeWhile fun c => set.contains c != negated)
    if run = [] then none else some (.text run, s.drop run.length)
  | .string width, s =>
    let s := s.dropWhile isSpace
    let run := bounded width (s.takeWhile fun c => !isSpace c)
    if run = [] then none else some (.text run, s.drop run.length)
  | .integer base, s =>
    (subject base s).map fun (negative, magnitude, rest) => (.number negative magnitude, rest)

/-- `sscanf(s, format, ...)`: the fields it stores, in order, up to the first
directive that fails. Their number is what `sscanf` returns, except that `EOF`
for input that ends before the first conversion is counted as 0 here. -/
def sscanf : List Directive → List Char → List Field
  | [], _ => []
  | .literal c :: format, s =>
    match s with
    | c' :: s' => if c' = c then sscanf format s' else []
    | [] => []
  | .conv k assign :: format, s =>
    match k.read s with
    | some (field, s') => (if assign then [field] else []) ++ sscanf format s'
    | none => []

/-- The number an integer conversion stores, before its length modifier cuts it
to the width of the argument; 0 for a field that was not stored. -/
def Field.value : Field → Nat
  | .number negative magnitude => strtoulValue negative magnitude
  | .text _ => 0

/-- The characters a string conversion stores. -/
def Field.chars : Field → List Char
  | .text chars => chars
  | .number .. => []

/-- The `i`-th stored field, or an empty text where nothing was stored: the
zeroed memory the parsers allocate before they call `sscanf`. -/
def fieldAt (fields : List Field) (i : Nat) : Field := fields.getD i (.text [])

section Reading

variable {body rest : List Char}

theorem read_scanset {negated : Bool} {set : List Char} {width : Option Nat}
    (nonempty : body ≠ []) (inside : ∀ c ∈ body, (set.contains c != negated) = true)
    (stop : ∀ c ∈ rest.head?, (set.contains c != negated) = false)
    (fits : ∀ w ∈ width, body.length ≤ w) :
    (Conv.scanset negated set width).read (body ++ rest) = some (.text body, rest) := by
  have run : bounded width ((body ++ rest).takeWhile fun c => set.contains c != negated) = body := by
    rw [takeWhile_stop inside stop]
    cases width with
    | none => rfl
    | some w => exact List.take_of_length_le (fits w rfl)
  simp only [Conv.read, run, if_neg nonempty, List.drop_left]

theorem read_string_all (nonempty : body ≠ []) (solid : ∀ c ∈ body, isSpace c = false) :
    (Conv.string none).read body = some (.text body, []) := by
  have first : ∀ c ∈ body.head?, isSpace c = false := fun c head => solid c (List.mem_of_mem_head? head)
  have run : body.takeWhile (fun c => !isSpace c) = body :=
    List.takeWhile_eq_self_iff.mpr (fun c member => by simp [solid c member])
  simp [Conv.read, dropWhile_of_head first, bounded, run, nonempty]

theorem read_string {width : Nat} (nonempty : body ≠ []) (solid : ∀ c ∈ body, isSpace c = false)
    (fits : body.length ≤ width) : (Conv.string (some width)).read body = some (.text body, []) := by
  have first : ∀ c ∈ body.head?, isSpace c = false := fun c head => solid c (List.mem_of_mem_head? head)
  have run : body.takeWhile (fun c => !isSpace c) = body :=
    List.takeWhile_eq_self_iff.mpr (fun c member => by simp [solid c member])
  simp [Conv.read, dropWhile_of_head first, bounded, run, List.take_of_length_le fits, nonempty]

theorem read_integer {base : Nat} (several : 1 < base) (upTo : base ≤ 16) (zeros n : Nat)
    (stop : ∀ c ∈ rest.head?, charVal c = none) :
    (Conv.integer base).read (List.replicate zeros '0' ++ Nat.toDigits base n ++ rest) =
      some (.number false n, rest) := by
  have inside : ∀ c ∈ List.replicate zeros '0' ++ Nat.toDigits base n, isDigitOf base c = true := by
    intro c member
    rcases List.mem_append.mp member with zero | printed
    · rw [List.eq_of_mem_replicate zero]
      simp [isDigitOf, charVal]
      omega
    · exact isDigitOf_of_mem_toDigits several upTo n c printed
  have nonempty : List.replicate zeros '0' ++ Nat.toDigits base n ≠ [] := by simp [Nat.toDigits_ne_nil]
  rw [Conv.read, subject_digits (by omega) upTo nonempty inside stop,
    digitsValue_replicate_zero_append, digitsValue_toDigits several upTo]
  rfl

end Reading

theorem stop_cons {c : Char} (nonDigit : charVal c = none) (rest : List Char) :
    ∀ x ∈ (c :: rest).head?, charVal x = none := by
  simpa using nonDigit

theorem stop_nil : ∀ x ∈ ([] : List Char).head?, charVal x = none := by simp

variable {format : List Directive} {s : List Char}

@[simp] theorem sscanf_literal_cons (c : Char) : sscanf (.literal c :: format) (c :: s) = sscanf format s := by
  simp [sscanf]

@[simp] theorem sscanf_literal_nil (c : Char) : sscanf (.literal c :: format) [] = [] := by
  simp [sscanf]

theorem sscanf_literals (chars : List Char) : sscanf (literals chars ++ format) (chars ++ s) = sscanf format s := by
  induction chars with
  | nil => rfl
  | cons c chars ih => simpa [literals] using ih

theorem sscanf_conv {k : Conv} {field : Field} {s' : List Char} (assign : Bool)
    (read : k.read s = some (field, s')) :
    sscanf (.conv k assign :: format) s = (if assign then [field] else []) ++ sscanf format s' := by
  simp [sscanf, read]

section Numbers

variable (assign : Bool) (n : Nat) {rest : List Char} (stop : ∀ c ∈ rest.head?, charVal c = none)
include stop

theorem sscanf_hex :
    sscanf (.conv (.integer 16) assign :: format) (fmtHex n ++ rest) =
      (if assign then [.number false n] else []) ++ sscanf format rest := by
  have read := read_integer (by decide : 1 < 16) le_rfl 0 n stop
  rw [List.replicate_zero, List.nil_append] at read
  exact sscanf_conv assign read

theorem sscanf_dec :
    sscanf (.conv (.integer 10) assign :: format) (fmtDec n ++ rest) =
      (if assign then [.number false n] else []) ++ sscanf format rest := by
  have read := read_integer (by decide : 1 < 10) (by decide) 0 n stop
  rw [List.replicate_zero, List.nil_append] at read
  exact sscanf_conv assign read

theorem sscanf_hexPadded (width : Nat) :
    sscanf (.conv (.integer 16) assign :: format) (fmtHexPadded width n ++ rest) =
      (if assign then [.number false n] else []) ++ sscanf format rest := by
  rw [fmtHexPadded, fmtHex]
  exact sscanf_conv assign (read_integer (by decide : 1 < 16) le_rfl _ n stop)

end Numbers

end Scanf

section Tokens

/-- `strtok_r` with the one delimiter `delim`: the next token after any
delimiters, and where the next call resumes, past the delimiter that ended it. -/
def strtokR (delim : Char) (s : List Char) : Option (List Char × List Char) :=
  match s.dropWhile (· == delim) with
  | [] => none
  | t => some (t.takeWhile (· != delim), (t.dropWhile (· != delim)).drop 1)

variable {delim : Char} {token : List Char}

theorem strtokR_token (nonempty : token ≠ []) (inside : delim ∉ token) (rest : List Char) :
    strtokR delim (token ++ delim :: rest) = some (token, rest) := by
  have other : ∀ c ∈ token, (c != delim) = true := by
    intro c member
    have : c ≠ delim := fun same => inside (same ▸ member)
    simpa using this
  have first : ∀ c ∈ (token ++ delim :: rest).head?, (c == delim) = false := by
    obtain ⟨d, t, rfl⟩ := List.exists_cons_of_ne_nil nonempty
    simpa using other d (by simp)
  have ends : ∀ c ∈ (delim :: rest).head?, (c != delim) = false := by simp
  rw [strtokR, dropWhile_of_head first]
  cases token with
  | nil => exact absurd rfl nonempty
  | cons d t =>
    simp only [List.cons_append]
    rw [← List.cons_append, takeWhile_stop other ends, dropWhile_stop other ends]
    rfl

theorem strtokR_last (nonempty : token ≠ []) (inside : delim ∉ token) :
    strtokR delim token = some (token, []) := by
  have other : ∀ c ∈ token, (c != delim) = true := by
    intro c member
    have : c ≠ delim := fun same => inside (same ▸ member)
    simpa using this
  obtain ⟨d, t, rfl⟩ := List.exists_cons_of_ne_nil nonempty
  have first : ∀ c ∈ (d :: t).head?, (c == delim) = false := by simpa using other d (by simp)
  rw [strtokR, dropWhile_of_head first]
  simp only [List.takeWhile_eq_self_iff.mpr other, List.dropWhile_eq_nil_iff.mpr other]
  rfl

@[simp] theorem strtokR_nil : strtokR delim [] = none := rfl

end Tokens

section Inet

/-- The characters of an IPv4 address in dotted decimal. -/
def inet4Char (c : Char) : Bool := isDigitOf 10 c || c == '.'

/-- The characters of an IPv6 address in its text forms, the dotted tail of a
mapped address included. -/
def inet6Char (c : Char) : Bool := isDigitOf 16 c || c == ':' || c == '.'

/-- What POSIX asks of `inet_ntop` and `inet_pton` for one address family:
`inet_ntop` writes every address as a nonempty text of at most `maxLen`
characters, each one that `chars` allows, and `inet_pton` reads that text back
to the same address. -/
structure InetText (α : Type) (chars : Char → Bool) (maxLen : Nat) where
  ntop : α → List Char
  pton : List Char → Option α
  pton_ntop (a : α) : pton (ntop a) = some a
  ntop_chars (a : α) : ∀ c ∈ ntop a, chars c = true
  ntop_ne_nil (a : α) : ntop a ≠ []
  ntop_length (a : α) : (ntop a).length ≤ maxLen

theorem isSpace_of_inet6Char {c : Char} (allowed : inet6Char c = true) : isSpace c = false := by
  simp only [inet6Char, Bool.or_eq_true, beq_iff_eq] at allowed
  rcases allowed with (digit | rfl) | rfl
  · exact isSpace_of_isDigitOf digit
  · rfl
  · rfl

/-! A pair of `inet_ntop` and `inet_pton` for each family, to show that the
laws of `InetText` can be met: an address is printed as its numbers in base
`base` joined by `sep` and read back with one `sscanf` conversion each. -/

/-- `printf` of numbers in base `base` joined by `sep`. -/
def fmtJoined (base : Nat) (sep : Char) : List Nat → List Char
  | [] => []
  | [n] => Nat.toDigits base n
  | n :: m :: ns => Nat.toDigits base n ++ sep :: fmtJoined base sep (m :: ns)

/-- The `scanf` format of `count + 1` numbers in base `base` joined by `sep`. -/
def joinedFormat (base : Nat) (sep : Char) : Nat → List Directive
  | 0 => [.conv (.integer base) true]
  | count + 1 => .conv (.integer base) true :: .literal sep :: joinedFormat base sep count

section Joined

variable {base : Nat} (several : 1 < base) (upTo : base ≤ 16) {sep : Char}
include several upTo

theorem sscanf_joined (nonDigit : charVal sep = none) (n : Nat) (ns : List Nat) :
    sscanf (joinedFormat base sep ns.length) (fmtJoined base sep (n :: ns)) =
      (n :: ns).map (.number false) := by
  induction ns generalizing n with
  | nil =>
    have read := read_integer several upTo 0 n stop_nil
    rw [List.replicate_zero, List.nil_append] at read
    rw [List.length_nil, joinedFormat, fmtJoined, ← List.append_nil (Nat.toDigits base n),
      sscanf_conv true read]
    rfl
  | cons m ns ih =>
    have read := read_integer several upTo 0 n (stop_cons nonDigit (fmtJoined base sep (m :: ns)))
    rw [List.replicate_zero, List.nil_append] at read
    rw [List.length_cons, joinedFormat, fmtJoined, sscanf_conv true read, sscanf_literal_cons, ih m]
    rfl

theorem mem_fmtJoined {c : Char} {ns : List Nat} (member : c ∈ fmtJoined base sep ns) :
    isDigitOf base c = true ∨ c = sep := by
  induction ns using fmtJoined.induct with
  | case1 => simp [fmtJoined] at member
  | case2 n => exact .inl (isDigitOf_of_mem_toDigits several upTo n c member)
  | case3 n m ns ih =>
    rw [fmtJoined] at member
    rcases List.mem_append.mp member with digit | rest
    · exact .inl (isDigitOf_of_mem_toDigits several upTo n c digit)
    · rcases List.mem_cons.mp rest with same | rest
      · exact .inr same
      · exact ih rest

end Joined

theorem length_fmtJoined {base : Nat} {sep : Char} {digits : Nat} {ns : List Nat}
    (short : ∀ n ∈ ns, (Nat.toDigits base n).length ≤ digits) :
    (fmtJoined base sep ns).length ≤ ns.length * (digits + 1) - 1 := by
  induction ns using fmtJoined.induct with
  | case1 => simp [fmtJoined]
  | case2 n => simpa [fmtJoined] using short n (by simp)
  | case3 n m ns ih =>
    have first := short n (by simp)
    have rest := ih (fun k member => short k (List.mem_cons_of_mem n member))
    have positive : 1 ≤ (ns.length + 1) * (digits + 1) := Nat.mul_pos (by omega) (by omega)
    simp only [fmtJoined, List.length_append, List.length_cons] at rest ⊢
    rw [Nat.succ_mul (ns.length + 1)]
    omega

theorem fmtJoined_ne_nil (base : Nat) (sep : Char) (n : Nat) (ns : List Nat) :
    fmtJoined base sep (n :: ns) ≠ [] := by
  cases ns with
  | nil => exact Nat.toDigits_ne_nil
  | cons m ns => simp [fmtJoined]

/-- Reads `count + 1` numbers joined by `sep`, each below `2 ^ width`. -/
def readJoined (base : Nat) (sep : Char) (count width : Nat) (s : List Char) : Option (List Nat) :=
  let fields := sscanf (joinedFormat base sep count) s
  if fields.length = count + 1 ∧ fields.all (·.value < 2 ^ width) then some (fields.map Field.value)
  else none

theorem readJoined_fmtJoined {base : Nat} (several : 1 < base) (upTo : base ≤ 16) {sep : Char}
    (nonDigit : charVal sep = none) {width : Nat} (small : width ≤ 64) (n : Nat) (ns : List Nat)
    (fits : ∀ k ∈ n :: ns, k < 2 ^ width) :
    readJoined base sep ns.length width (fmtJoined base sep (n :: ns)) = some (n :: ns) := by
  have values : ∀ k ∈ n :: ns, (Field.number false k).value = k := fun k member =>
    strtoulValue_of_lt (Nat.lt_of_lt_of_le (fits k member) (Nat.pow_le_pow_right (by decide) small))
  have valued : ((n :: ns).map (Field.number false)).map Field.value = n :: ns := by
    rw [List.map_map]
    exact List.map_congr_left values |>.trans (List.map_id _)
  simp only [readJoined, sscanf_joined several upTo nonDigit n ns, List.length_map, List.length_cons,
    List.all_map, valued]
  simp only [true_and, List.all_eq_true, Function.comp_apply, decide_eq_true_eq]
  rw [if_pos (fun k member => (values k member).symm ▸ fits k member)]

/-- IPv4 addresses in dotted decimal. -/
def dottedQuad : InetText (Vector UInt8 4) inet4Char 15 where
  ntop a := fmtJoined 10 '.' (a.toList.map UInt8.toNat)
  pton s := (readJoined 10 '.' 3 8 s).bind fun bytes =>
    if bytes.length = 4 then some (Vector.ofFn fun i => UInt8.ofNat (bytes.getD i 0)) else none
  pton_ntop a := by
    have read : readJoined 10 '.' 3 8 (fmtJoined 10 '.' (a.toList.map UInt8.toNat)) =
        some (a.toList.map UInt8.toNat) := by
      obtain ⟨b0, bs, bytes⟩ : ∃ b0 bs, a.toList.map UInt8.toNat = b0 :: bs :=
        List.exists_cons_of_ne_nil (by simp)
      have three : bs.length = 3 := by
        have lengths := congrArg List.length bytes
        simp only [List.length_map, Vector.length_toList, List.length_cons] at lengths
        omega
      rw [bytes, ← three]
      exact readJoined_fmtJoined (by decide) (by decide) (by decide) (by decide) b0 bs
        (fun k member => by
          rw [← bytes] at member
          obtain ⟨x, -, rfl⟩ := List.mem_map.mp member
          exact x.toNat_lt)
    simp only [read, Option.bind_some, List.length_map, Vector.length_toList, if_true]
    congr
    ext i small
    simp [List.getD_eq_getElem?_getD]
  ntop_chars a c member := by
    simpa [inet4Char, or_comm] using mem_fmtJoined (by decide) (by decide) member
  ntop_ne_nil a := by
    obtain ⟨b0, bs, bytes⟩ : ∃ b0 bs, a.toList.map UInt8.toNat = b0 :: bs :=
      List.exists_cons_of_ne_nil (by simp)
    simp only [bytes]
    exact fmtJoined_ne_nil 10 '.' b0 bs
  ntop_length a := by
    have short : ∀ n ∈ a.toList.map UInt8.toNat, (Nat.toDigits 10 n).length ≤ 3 := by
      intro n member
      obtain ⟨x, -, rfl⟩ := List.mem_map.mp member
      exact Nat.toDigits_length 10 _ 3 (by decide) (Nat.lt_of_lt_of_le x.toNat_lt (by decide))
    have bound : (fmtJoined 10 '.' (a.toList.map UInt8.toNat)).length ≤ 4 * (3 + 1) - 1 := by
      simpa using length_fmtJoined short
    exact Nat.le_trans bound (by decide)

/-! `inet_ntop` for IPv6 writes the first longest run of two or more zero
groups as `::`, and `inet_pton` fills the gap back with zeros. -/

/-- The text before and after the first `::`. -/
def splitGap : List Char → Option (List Char × List Char)
  | [] => none
  | c :: rest =>
    if c = ':' ∧ rest.head? = some ':' then some ([], rest.tail)
    else (splitGap rest).map fun parts => (c :: parts.1, parts.2)

/-- The number of zero groups from index `i` on. -/
def zeroRunAt (groups : List Nat) (i : Nat) : Nat := ((groups.drop i).takeWhile (· == 0)).length

/-- The first longest run of zero groups, as its start and its length. -/
def longestZeroRun (groups : List Nat) : Nat × Nat :=
  (List.range groups.length).foldl
    (fun best i => if best.2 < zeroRunAt groups i then (i, zeroRunAt groups i) else best) (0, 0)

/-- Eight groups, the first longest run of two or more zeros written `::`. -/
def fmtGapped (groups : List Nat) : List Char :=
  let run := longestZeroRun groups
  if run.2 < 2 then fmtJoined 16 ':' groups
  else fmtJoined 16 ':' (groups.take run.1) ++ ':' :: ':' :: fmtJoined 16 ':' (groups.drop (run.1 + run.2))

/-- Hex groups joined by `:`; the empty text, on a side of `::`, has none. -/
def readGroups (s : List Char) : Option (List Nat) :=
  if s = [] then some [] else readJoined 16 ':' (s.count ':') 16 s

/-- The groups of an IPv6 text, `::` standing for the zero groups missing
from eight. -/
def readGapped (s : List Char) : Option (List Nat) :=
  match splitGap s with
  | some (left, right) =>
    (readGroups left).bind fun l => (readGroups right).bind fun r =>
      if l.length + r.length < 8 then some (l ++ List.replicate (8 - l.length - r.length) 0 ++ r) else none
  | none => readJoined 16 ':' 7 16 s

section Gapped

theorem colon_not_mem_toDigits (n : Nat) : ':' ∉ Nat.toDigits 16 n := fun member =>
  absurd (isDigitOf_of_mem_toDigits (by decide) le_rfl n ':' member) (by decide)

theorem splitGap_colon {s : List Char} (head : s.head? ≠ some ':') :
    splitGap (':' :: s) = (splitGap s).map fun parts => (':' :: parts.1, parts.2) := by
  rw [splitGap, if_neg (fun both => head both.2)]

theorem splitGap_append_of_not_mem {d : List Char} (noColon : ':' ∉ d) (rest : List Char) :
    splitGap (d ++ rest) = (splitGap rest).map fun parts => (d ++ parts.1, parts.2) := by
  induction d with
  | nil => simp
  | cons c d ih =>
    have other : c ≠ ':' := fun same => noColon (same ▸ List.mem_cons_self)
    rw [List.cons_append, splitGap, if_neg (fun both => other both.1),
      ih (fun member => noColon (List.mem_cons_of_mem c member)), Option.map_map]
    rfl

theorem splitGap_fmtJoined_append (ns : List Nat) (rest : List Char) :
    splitGap (fmtJoined 16 ':' ns ++ rest) =
      (splitGap rest).map fun parts => (fmtJoined 16 ':' ns ++ parts.1, parts.2) := by
  induction ns using fmtJoined.induct with
  | case1 => simp [fmtJoined]
  | case2 n => exact splitGap_append_of_not_mem (colon_not_mem_toDigits n) rest
  | case3 n m ns ih =>
    -- the colon after a group is followed by the first digit of the next one
    obtain ⟨c, more, digits⟩ : ∃ c more, Nat.toDigits 16 m = c :: more :=
      List.exists_cons_of_ne_nil Nat.toDigits_ne_nil
    have first : (fmtJoined 16 ':' (m :: ns) ++ rest).head? = some c := by
      cases ns <;> simp [fmtJoined, digits]
    have digit : c ≠ ':' := fun same => colon_not_mem_toDigits m (digits ▸ same ▸ List.mem_cons_self)
    rw [fmtJoined, List.append_assoc, List.cons_append,
      splitGap_append_of_not_mem (colon_not_mem_toDigits n),
      splitGap_colon (by rw [first]; simpa using digit), ih, Option.map_map, Option.map_map]
    simp [Function.comp_def]

theorem splitGap_fmtJoined (ns : List Nat) : splitGap (fmtJoined 16 ':' ns) = none := by
  simpa [splitGap] using splitGap_fmtJoined_append ns []

theorem splitGap_fmtJoined_gap (ns : List Nat) (right : List Char) :
    splitGap (fmtJoined 16 ':' ns ++ ':' :: ':' :: right) = some (fmtJoined 16 ':' ns, right) := by
  rw [splitGap_fmtJoined_append]
  simp [splitGap]

theorem count_fmtJoined (n : Nat) (ns : List Nat) : (fmtJoined 16 ':' (n :: ns)).count ':' = ns.length := by
  induction ns generalizing n with
  | nil => exact List.count_eq_zero_of_not_mem (colon_not_mem_toDigits n)
  | cons m ns ih =>
    rw [fmtJoined, List.count_append, List.count_cons_self, ih,
      List.count_eq_zero_of_not_mem (colon_not_mem_toDigits n), List.length_cons, Nat.zero_add]

theorem readGroups_fmtJoined (ns : List Nat) (fits : ∀ k ∈ ns, k < 2 ^ 16) :
    readGroups (fmtJoined 16 ':' ns) = some ns := by
  cases ns with
  | nil => rfl
  | cons n ns =>
    rw [readGroups, if_neg (fmtJoined_ne_nil 16 ':' n ns), count_fmtJoined]
    exact readJoined_fmtJoined (by decide) le_rfl (by decide) (by decide) n ns fits

theorem longestZeroRun_run (groups : List Nat) :
    (longestZeroRun groups).2 = 0 ∨ (longestZeroRun groups).2 = zeroRunAt groups (longestZeroRun groups).1 := by
  unfold longestZeroRun
  refine List.foldlRecOn (motive := fun best : Nat × Nat => best.2 = 0 ∨ best.2 = zeroRunAt groups best.1) _ _ (.inl rfl) ?_
  intro best found i _
  split
  · exact .inr rfl
  · exact found

theorem eq_of_zeroRunAt {groups : List Nat} {start len : Nat} (run : zeroRunAt groups start = len) (pos : 0 < len) :
    groups = groups.take start ++ List.replicate len 0 ++ groups.drop (start + len) ∧
      start + len ≤ groups.length := by
  have whole := List.takeWhile_append_dropWhile (p := (· == 0)) (l := groups.drop start)
  have zeros : (groups.drop start).takeWhile (· == 0) = List.replicate len 0 :=
    List.eq_replicate_iff.mpr ⟨run, fun x member => by simpa using List.mem_takeWhile_imp member⟩
  have after : (groups.drop start).dropWhile (· == 0) = groups.drop (start + len) := by
    have dropped := congrArg (List.drop len) whole
    rwa [zeros, List.drop_left' List.length_replicate, List.drop_drop] at dropped
  have within : len ≤ (groups.drop start).length := run ▸ (List.takeWhile_sublist _).length_le
  have nonempty : start < groups.length := by
    by_contra past
    rw [List.drop_eq_nil_of_le (by omega)] at within
    simp at within
    omega
  rw [zeros, after] at whole
  refine ⟨?_, by rw [List.length_drop] at within; omega⟩
  rw [List.append_assoc, whole, List.take_append_drop]

variable {groups : List Nat} (fits : ∀ k ∈ groups, k < 2 ^ 16)
include fits

theorem readGapped_fmtGapped (eight : groups.length = 8) : readGapped (fmtGapped groups) = some groups := by
  have found := longestZeroRun_run groups
  unfold fmtGapped
  generalize longestZeroRun groups = run at found ⊢
  obtain ⟨start, len⟩ := run
  dsimp only at found ⊢
  split
  · -- no run worth a gap: eight groups joined by colons
    obtain ⟨n, ns, rfl⟩ := List.exists_cons_of_ne_nil (List.ne_nil_of_length_pos (by omega : 0 < groups.length))
    have seven : ns.length = 7 := by simpa using eight
    rw [readGapped, splitGap_fmtJoined, ← seven]
    exact readJoined_fmtJoined (by decide) le_rfl (by decide) (by decide) n ns fits
  · rename_i long
    obtain ⟨cut, inside⟩ := eq_of_zeroRunAt (found.resolve_left (by omega)).symm (by omega)
    rw [readGapped, splitGap_fmtJoined_gap]
    dsimp only
    rw [readGroups_fmtJoined _ fun k member => fits k (List.mem_of_mem_take member),
      readGroups_fmtJoined _ fun k member => fits k (List.mem_of_mem_drop member)]
    simp only [Option.bind_some, List.length_take, List.length_drop]
    rw [if_pos (by omega)]
    have gap : 8 - min start groups.length - (groups.length - (start + len)) = len := by omega
    rw [gap, ← cut]

theorem length_fmtGapped (eight : groups.length = 8) : (fmtGapped groups).length ≤ 45 := by
  have short (l : List Nat) (sub : ∀ k ∈ l, k ∈ groups) : (fmtJoined 16 ':' l).length ≤ l.length * 5 - 1 :=
    length_fmtJoined fun n member =>
      Nat.toDigits_length 16 _ 4 (by decide) (Nat.lt_of_lt_of_le (fits n (sub n member)) (by decide))
  unfold fmtGapped
  generalize longestZeroRun groups = run
  dsimp only
  split
  · have := short groups fun _ => id
    omega
  · have left := short (groups.take run.1) fun _ => List.mem_of_mem_take
    have right := short (groups.drop (run.1 + run.2)) fun _ => List.mem_of_mem_drop
    simp only [List.length_take, List.length_drop] at left right
    simp only [List.length_append, List.length_cons]
    omega

end Gapped

theorem mem_fmtGapped {groups : List Nat} {c : Char} (member : c ∈ fmtGapped groups) :
    isDigitOf 16 c = true ∨ c = ':' := by
  unfold fmtGapped at member
  dsimp only at member
  split at member
  · exact mem_fmtJoined (by decide) le_rfl member
  · simp only [List.mem_append, List.mem_cons] at member
    rcases member with left | rfl | rfl | right
    · exact mem_fmtJoined (by decide) le_rfl left
    · exact .inr rfl
    · exact .inr rfl
    · exact mem_fmtJoined (by decide) le_rfl right

/-- IPv6 addresses as hex groups with the `::` abbreviation, as `inet_ntop`
prints an address that is not IPv4-mapped. -/
def compressedGroups : InetText (Vector UInt16 8) inet6Char 45 where
  ntop a := fmtGapped (a.toList.map UInt16.toNat)
  pton s := (readGapped s).bind fun groups =>
    if groups.length = 8 then some (Vector.ofFn fun i => UInt16.ofNat (groups.getD i 0)) else none
  pton_ntop a := by
    have fits : ∀ k ∈ a.toList.map UInt16.toNat, k < 2 ^ 16 := fun k member => by
      obtain ⟨x, -, rfl⟩ := List.mem_map.mp member
      exact x.toNat_lt
    simp only [readGapped_fmtGapped fits (by simp), Option.bind_some, List.length_map, Vector.length_toList,
      if_true]
    congr
    ext i small
    simp [List.getD_eq_getElem?_getD]
  ntop_chars a c member := by
    rcases mem_fmtGapped member with digit | rfl
    · simp [inet6Char, digit]
    · rfl
  ntop_ne_nil a := by
    unfold fmtGapped
    dsimp only
    split
    · obtain ⟨g0, gs, groups⟩ : ∃ g0 gs, a.toList.map UInt16.toNat = g0 :: gs :=
        List.exists_cons_of_ne_nil (by simp)
      simp only [groups]
      exact fmtJoined_ne_nil 16 ':' g0 gs
    · simp
  ntop_length a := length_fmtGapped (fun k member => by
      obtain ⟨x, -, rfl⟩ := List.mem_map.mp member
      exact x.toNat_lt) (by simp)

example : compressedGroups.ntop #v[0xfe80, 0, 0, 0, 0, 0, 0, 1] = "fe80::1".toList := by decide

example : compressedGroups.pton "::1".toList = some #v[0, 0, 0, 0, 0, 0, 0, 1] := by decide

end Inet

end CText
