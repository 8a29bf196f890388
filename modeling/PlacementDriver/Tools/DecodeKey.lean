import Mathlib

/-!
# pd-ctl's escaped keys

`pd-ctl region key --format=encode` reads a key written with Go's escapes and
turns it back into bytes (`decodeKey` in `region_command.go`). The decoder
reads the text a byte at a time; after a backslash it reads one more byte,
which is a named escape such as `\n`, or `x` followed by two bytes read as
hex with `fmt.Sscanf(.., "%02x", ..)`, or the first of three bytes read as
octal with `"%03o"`.

The scanner of `fmt` is modelled for these two formats into a `uint8`:
white space before the number is skipped (a newline is an error), at least
one digit of the base must follow, digits are taken up to the width, and a
value above 255 is an overflow. What follows the digits is not read.

Every byte string escaped byte by byte, in any mix of the escape forms, is
decoded back to itself. The hex branch drops the error of its `Sscanf`, so
a malformed `\x` escape does not fail: `c` keeps the backslash it was read
into, and `\xZZ` decodes to a lone backslash (`decodeKey_hex_error_ignored`).

## Main results

* `decodeKeyLoop_escapes`: the decoder run on an escaped byte string gives
  the bytes back, whatever follows.
* `escapesByte_escapeByte`: Go-style escaping writes each byte in one of the
  escape forms.
* `not_wellFormed_xZZ`: `\xZZ` is no concatenation of escapes.
-/

namespace PlacementDriver.Tools

/-! ## Scanning a number with `fmt.Sscanf` -/

/-- The errors `fmt.Sscanf` can report for a `%0Nx` or `%0No` verb into a
`uint8`. -/
inductive ScanError where
  /-- `io.ErrUnexpectedEOF`, `"unexpected EOF"`: no input is left for the number -/
  | unexpectedEOF
  /-- `"expected integer"`: the first rune is no digit of the base -/
  | expectedInteger
  /-- `"unexpected newline"`: a newline before the number -/
  | unexpectedNewline
  /-- `"unsigned integer overflow on token " + tok` -/
  | overflow (tok : List UInt8)
deriving DecidableEq, Repr

/-- `ss.SkipSpace` with newlines not counted as space: the white-space runes
of `fmt`'s table (Unicode `White_Space`) are skipped, written here by their
UTF-8 encodings; a newline is an error, also after a `\r`. -/
def skipSpace : List UInt8 → Except ScanError (List UInt8)
  | [] => .ok []
  | 0x0A :: _ => .error .unexpectedNewline
  | 0x09 :: rest | 0x0B :: rest | 0x0C :: rest | 0x0D :: rest | 0x20 :: rest => skipSpace rest
  -- U+0085 and U+00A0
  | 0xC2 :: 0x85 :: rest | 0xC2 :: 0xA0 :: rest => skipSpace rest
  -- U+1680
  | 0xE1 :: 0x9A :: 0x80 :: rest => skipSpace rest
  -- U+2000 to U+200A
  | 0xE2 :: 0x80 :: 0x80 :: rest | 0xE2 :: 0x80 :: 0x81 :: rest | 0xE2 :: 0x80 :: 0x82 :: rest
  | 0xE2 :: 0x80 :: 0x83 :: rest | 0xE2 :: 0x80 :: 0x84 :: rest | 0xE2 :: 0x80 :: 0x85 :: rest
  | 0xE2 :: 0x80 :: 0x86 :: rest | 0xE2 :: 0x80 :: 0x87 :: rest | 0xE2 :: 0x80 :: 0x88 :: rest
  | 0xE2 :: 0x80 :: 0x89 :: rest | 0xE2 :: 0x80 :: 0x8A :: rest => skipSpace rest
  -- U+2028, U+2029, U+202F, U+205F and U+3000
  | 0xE2 :: 0x80 :: 0xA8 :: rest | 0xE2 :: 0x80 :: 0xA9 :: rest | 0xE2 :: 0x80 :: 0xAF :: rest
  | 0xE2 :: 0x81 :: 0x9F :: rest | 0xE3 :: 0x80 :: 0x80 :: rest => skipSpace rest
  | s => .ok s

/-- `octalDigits`, `"01234567"`. -/
def octalDigits : List UInt8 := [0x30, 0x31, 0x32, 0x33, 0x34, 0x35, 0x36, 0x37]

/-- `hexadecimalDigits`, `"0123456789aAbBcCdDeEfF"`. -/
def hexadecimalDigits : List UInt8 :=
  [0x30, 0x31, 0x32, 0x33, 0x34, 0x35, 0x36, 0x37, 0x38, 0x39,
    0x61, 0x41, 0x62, 0x42, 0x63, 0x43, 0x64, 0x44, 0x65, 0x45, 0x66, 0x46]

/-- The value `strconv.ParseUint` gives a digit. -/
def digitValue (d : UInt8) : Nat :=
  if d ≤ 0x39 then d.toNat - 0x30 else if d ≤ 0x46 then d.toNat - 0x41 + 10 else d.toNat - 0x61 + 10

/-- `strconv.ParseUint(tok, base, 64)` on a token of digits of the base, which
the scanner has checked; a token of at most three digits does not overflow. -/
def parseUint (base : Nat) (tok : List UInt8) : Nat :=
  tok.foldl (fun n d => n * base + digitValue d) 0

/-- `ss.scanNumber`: the digits from the start of the input, at most `wid`
of them. -/
def scanNumber (digits : List UInt8) (wid : Nat) (s : List UInt8) : List UInt8 :=
  (s.take wid).takeWhile digits.contains

/-- `fmt.Sscanf(s, "%0<wid><verb>", &c)` into a `uint8`, with the verb's
`digits` and `base`: the value it stores in `c`, or its error, which leaves
`c` unchanged. The second `SkipSpace`, in `scanUint`, starts at a rune that is
no space and does nothing. -/
def sscanUint8 (digits : List UInt8) (base wid : Nat) (s : List UInt8) : Except ScanError UInt8 :=
  match skipSpace s with
  | .error e => .error e
  | .ok [] => .error .unexpectedEOF
  | .ok (d :: rest) =>
    if digits.contains d then
      if parseUint base (scanNumber digits wid (d :: rest)) < 256 then
        .ok (parseUint base (scanNumber digits wid (d :: rest))).toUInt8
      else .error (.overflow (scanNumber digits wid (d :: rest)))
    else .error .expectedInteger

/-- `fmt.Sscanf(s, "%02x", &c)`. -/
def sscanHex (s : List UInt8) : Except ScanError UInt8 := sscanUint8 hexadecimalDigits 16 2 s

/-- `fmt.Sscanf(s, "%03o", &c)`. -/
def sscanOctal (s : List UInt8) : Except ScanError UInt8 := sscanUint8 octalDigits 8 3 s

/-! ## The decoder -/

/-- The errors of `decodeKey`. -/
inductive DecodeError where
  /-- `io.EOF`: the text ends in a backslash -/
  | eof
  /-- the error of the octal `Sscanf`, wrapped by `errors.WithStack` -/
  | scan (e : ScanError)
deriving DecidableEq, Repr

/-- The backslash, `'\\'`. -/
def backslash : UInt8 := 0x5C

/-- The letters of the named escapes, `` `abfnrtv\'"` ``. -/
def escapeLetters : List UInt8 := [0x61, 0x62, 0x66, 0x6E, 0x72, 0x74, 0x76, 0x5C, 0x27, 0x22]

/-- The bytes they stand for, `"\a\b\f\n\r\t\v\\'\""`. -/
def escapeValues : List UInt8 := [0x07, 0x08, 0x0C, 0x0A, 0x0D, 0x09, 0x0B, 0x5C, 0x27, 0x22]

/-- `strings.IndexByte` of the byte in the letters, then the value at that
index. -/
def namedEscape (n : UInt8) : Option UInt8 :=
  match escapeLetters.idxOf? n with
  | some idx => some (escapeValues.getD idx 0)
  | none => none

/-- The loop of `decodeKey`, with the bytes decoded so far in `buf`. After
`\x` and after the first digit of an octal escape, `r.Next(2)` takes the next
two bytes, or all that is left: then the next `ReadByte` ends the loop. -/
def decodeKeyLoop (buf : List UInt8) : List UInt8 → Except DecodeError (List UInt8)
  | [] => .ok buf
  | c :: r =>
    if c ≠ backslash then decodeKeyLoop (buf ++ [c]) r
    else
      match r with
      | [] => .error .eof
      | n :: r =>
        match namedEscape n with
        | some e => decodeKeyLoop (buf ++ [e]) r
        | none =>
          if n = 0x78 then
            -- the error of the hex scan is dropped and `c` keeps the backslash
            match r with
            | h1 :: h2 :: r => decodeKeyLoop (buf ++ [(sscanHex [h1, h2]).toOption.getD c]) r
            | short => .ok (buf ++ [(sscanHex short).toOption.getD c])
          else
            match r with
            | o1 :: o2 :: r =>
              match sscanOctal [n, o1, o2] with
              | .ok v => decodeKeyLoop (buf ++ [v]) r
              | .error e => .error (.scan e)
            | short =>
              match sscanOctal (n :: short) with
              | .ok v => .ok (buf ++ [v])
              | .error e => .error (.scan e)

/-- `decodeKey(text)`. -/
def decodeKey (text : List UInt8) : Except DecodeError (List UInt8) := decodeKeyLoop [] text

/-! ## Escaped byte strings -/

/-- The escapes of Go's rune literals that stand for a single byte: the
letter after the backslash and the byte. -/
def goEscapes : List (UInt8 × UInt8) :=
  [(0x61, 0x07), (0x62, 0x08), (0x66, 0x0C), (0x6E, 0x0A), (0x72, 0x0D), (0x74, 0x09), (0x76, 0x0B),
    (0x5C, 0x5C), (0x27, 0x27), (0x22, 0x22)]

/-- The texts that stand for the byte `b` in an escaped key. -/
inductive EscapesByte : UInt8 → List UInt8 → Prop where
  /-- a byte other than the backslash, as itself -/
  | plain {b : UInt8} : b ≠ backslash → EscapesByte b [b]
  /-- a named escape such as `\n` -/
  | named {b l : UInt8} : (l, b) ∈ goEscapes → EscapesByte b [backslash, l]
  /-- `\xHH`, with digits in either case -/
  | hex {b h1 h2 : UInt8} : h1 ∈ hexadecimalDigits → h2 ∈ hexadecimalDigits →
      digitValue h1 * 16 + digitValue h2 = b.toNat → EscapesByte b [backslash, 0x78, h1, h2]
  /-- `\OOO` -/
  | octal {b o1 o2 o3 : UInt8} : o1 ∈ octalDigits → o2 ∈ octalDigits → o3 ∈ octalDigits →
      (digitValue o1 * 8 + digitValue o2) * 8 + digitValue o3 = b.toNat →
        EscapesByte b [backslash, o1, o2, o3]

/-- A text made of escapes, one for each byte of some byte string. -/
def WellFormed (text : List UInt8) : Prop :=
  ∃ k units, List.Forall₂ EscapesByte k units ∧ text = units.flatten

/-! ## The scanner on digits -/

theorem skipSpace_of_mem_hex : ∀ d ∈ hexadecimalDigits, ∀ rest, skipSpace (d :: rest) = .ok (d :: rest) := by
  simp only [hexadecimalDigits, List.mem_cons, List.not_mem_nil, or_false]
  rintro d (rfl | rfl | rfl | rfl | rfl | rfl | rfl | rfl | rfl | rfl | rfl | rfl | rfl | rfl | rfl | rfl | rfl |
    rfl | rfl | rfl | rfl | rfl) rest <;> rfl

theorem octalDigits_subset : octalDigits ⊆ hexadecimalDigits := by decide

/-- A token of exactly `wid` digits, none of them a space, scans to its value
when that fits in a byte. -/
theorem sscanUint8_of_digits {digits : List UInt8} (hsub : digits ⊆ hexadecimalDigits) {base wid : Nat}
    {d : UInt8} {ds : List UInt8} (hall : ∀ x ∈ d :: ds, x ∈ digits) (hwid : (d :: ds).length = wid)
    {b : UInt8} (hv : parseUint base (d :: ds) = b.toNat) :
    sscanUint8 digits base wid (d :: ds) = .ok b := by
  have hnum : scanNumber digits wid (d :: ds) = d :: ds := by
    rw [scanNumber, ← hwid, List.take_length, List.takeWhile_eq_self_iff]
    simpa using hall
  rw [sscanUint8, skipSpace_of_mem_hex d (hsub (hall d List.mem_cons_self)) ds]
  simp only [List.contains_iff_mem, hall d List.mem_cons_self, if_true, hnum, hv]
  rw [if_pos b.toNat_lt]
  exact congrArg Except.ok UInt8.ofNat_toNat

theorem sscanHex_of_digits {h1 h2 b : UInt8} (h₁ : h1 ∈ hexadecimalDigits) (h₂ : h2 ∈ hexadecimalDigits)
    (hv : digitValue h1 * 16 + digitValue h2 = b.toNat) : sscanHex [h1, h2] = .ok b :=
  sscanUint8_of_digits (List.Subset.refl _) (by simp [h₁, h₂]) rfl (by simpa [parseUint] using hv)

theorem sscanOctal_of_digits {o1 o2 o3 b : UInt8} (h₁ : o1 ∈ octalDigits) (h₂ : o2 ∈ octalDigits)
    (h₃ : o3 ∈ octalDigits) (hv : (digitValue o1 * 8 + digitValue o2) * 8 + digitValue o3 = b.toNat) :
    sscanOctal [o1, o2, o3] = .ok b :=
  sscanUint8_of_digits octalDigits_subset (by simp [h₁, h₂, h₃]) rfl (by simpa [parseUint] using hv)

/-! ## Decoding escaped bytes -/

theorem namedEscape_goEscapes : ∀ p ∈ goEscapes, namedEscape p.1 = some p.2 := by
  simp only [goEscapes, List.forall_mem_cons, List.not_mem_nil, IsEmpty.forall_iff, implies_true, and_true]
  exact ⟨rfl, rfl, rfl, rfl, rfl, rfl, rfl, rfl, rfl, rfl⟩

theorem namedEscape_octal : ∀ o ∈ octalDigits, namedEscape o = none ∧ o ≠ 0x78 := by decide +kernel

theorem decodeKeyLoop_cons_of_ne {c : UInt8} (hc : c ≠ backslash) (buf r : List UInt8) :
    decodeKeyLoop buf (c :: r) = decodeKeyLoop (buf ++ [c]) r := by
  rw [decodeKeyLoop.eq_def]
  simp only [if_pos hc]

/-- One escaped byte, followed by anything, decodes to the byte and leaves
the rest to the loop. -/
theorem decodeKeyLoop_escapesByte {b : UInt8} {u : List UInt8} (h : EscapesByte b u) (buf rest : List UInt8) :
    decodeKeyLoop buf (u ++ rest) = decodeKeyLoop (buf ++ [b]) rest := by
  cases h with
  | plain hb => rw [List.singleton_append, decodeKeyLoop_cons_of_ne hb]
  | named hl =>
    rw [List.cons_append, decodeKeyLoop.eq_def]
    simp only [List.cons_append, List.nil_append, ne_eq, not_true_eq_false, if_false, namedEscape_goEscapes _ hl]
  | hex h₁ h₂ hv =>
    have hx : namedEscape 0x78 = none := rfl
    rw [List.cons_append, decodeKeyLoop.eq_def]
    simp only [List.cons_append, List.nil_append, ne_eq, not_true_eq_false, if_false, hx, if_true,
      sscanHex_of_digits h₁ h₂ hv]
    rfl
  | octal h₁ h₂ h₃ hv =>
    obtain ⟨hnone, hne⟩ := namedEscape_octal _ h₁
    rw [List.cons_append, decodeKeyLoop.eq_def]
    simp only [List.cons_append, List.nil_append, ne_eq, not_true_eq_false, if_false, hnone, if_neg hne,
      sscanOctal_of_digits h₁ h₂ h₃ hv]

/-- The loop run on the escapes of a byte string, followed by anything,
appends the byte string to what it has decoded. -/
theorem decodeKeyLoop_escapes {k : List UInt8} {units : List (List UInt8)} (h : List.Forall₂ EscapesByte k units)
    (buf rest : List UInt8) : decodeKeyLoop buf (units.flatten ++ rest) = decodeKeyLoop (buf ++ k) rest := by
  induction h generalizing buf with
  | nil => simp
  | cons hb _ ih =>
    rw [List.flatten_cons, List.append_assoc, decodeKeyLoop_escapesByte hb, ih, List.append_assoc,
      List.singleton_append]

theorem decodeKey_of_forall₂ {k : List UInt8} {units : List (List UInt8)} (h : List.Forall₂ EscapesByte k units) :
    decodeKey units.flatten = .ok k := by
  rw [decodeKey, ← List.append_nil units.flatten, decodeKeyLoop_escapes h, List.nil_append, decodeKeyLoop]

/-- `\n`, `\x41` and `\101` each decode to their byte. -/
example : decodeKey [0x5C, 0x6E, 0x5C, 0x78, 0x34, 0x31, 0x5C, 0x31, 0x30, 0x31] = .ok [0x0A, 0x41, 0x41] := by
  decide

/-! ## Go-style escaping -/

/-- The lower-case hex digit of `n < 16`. -/
def hexDigit (n : Nat) : UInt8 := if n < 10 then (0x30 + n).toUInt8 else (0x61 + n - 10).toUInt8

/-- The octal digit of `n < 8`. -/
def octDigit (n : Nat) : UInt8 := (0x30 + n).toUInt8

/-- One byte escaped as Go writes it: printable ASCII other than the
backslash and the quotes as itself, a byte with a named escape by that
escape, and any other byte as `\xHH`, or as `\OOO` where `octal` says so. -/
def escapeByte (octal : Bool) (b : UInt8) : List UInt8 :=
  if 0x20 ≤ b ∧ b ≤ 0x7E ∧ b ≠ backslash ∧ b ≠ 0x27 ∧ b ≠ 0x22 then [b]
  else
    match goEscapes.find? (fun p => p.2 == b) with
    | some p => [backslash, p.1]
    | none =>
      if octal then [backslash, octDigit (b.toNat / 64), octDigit (b.toNat / 8 % 8), octDigit (b.toNat % 8)]
      else [backslash, 0x78, hexDigit (b.toNat / 16), hexDigit (b.toNat % 16)]

/-- A byte string escaped a byte at a time, `octal` choosing the numeric
form of each byte. -/
def escape (octal : UInt8 → Bool) (k : List UInt8) : List UInt8 :=
  (k.map fun b => escapeByte (octal b) b).flatten

theorem hexDigit_spec : ∀ n < 16, hexDigit n ∈ hexadecimalDigits ∧ digitValue (hexDigit n) = n := by
  decide +kernel

theorem octDigit_spec : ∀ n < 8, octDigit n ∈ octalDigits ∧ digitValue (octDigit n) = n := by
  decide +kernel

theorem escapesByte_escapeByte (octal : Bool) (b : UInt8) : EscapesByte b (escapeByte octal b) := by
  have hb : b.toNat < 256 := b.toNat_lt
  unfold escapeByte
  split
  · next hprint => exact .plain hprint.2.2.1
  · split
    · next p hp =>
      -- the entry found in the table is the byte's own escape
      have hb' : p.2 = b := by simpa using List.find?_some hp
      exact .named (hb' ▸ List.mem_of_find?_eq_some hp)
    · split
      · obtain ⟨h₁, v₁⟩ := octDigit_spec (b.toNat / 64) (by omega)
        obtain ⟨h₂, v₂⟩ := octDigit_spec (b.toNat / 8 % 8) (by omega)
        obtain ⟨h₃, v₃⟩ := octDigit_spec (b.toNat % 8) (by omega)
        exact .octal h₁ h₂ h₃ (by rw [v₁, v₂, v₃]; omega)
      · obtain ⟨h₁, v₁⟩ := hexDigit_spec (b.toNat / 16) (by omega)
        obtain ⟨h₂, v₂⟩ := hexDigit_spec (b.toNat % 16) (by omega)
        exact .hex h₁ h₂ (by rw [v₁, v₂]; omega)

theorem forall₂_escapeByte (octal : UInt8 → Bool) (k : List UInt8) :
    List.Forall₂ EscapesByte k (k.map fun b => escapeByte (octal b) b) := by
  rw [List.forall₂_map_right_iff, List.forall₂_same]
  exact fun b _ => escapesByte_escapeByte (octal b) b

/-! ## A malformed hex escape -/

/-- `\xZZ`: a backslash, `x` and two bytes that are no hex digits. -/
def xZZ : List UInt8 := [0x5C, 0x78, 0x5A, 0x5A]

/-- No escape of a byte starts `\xZZ`, so it is no concatenation of
escapes. -/
theorem not_wellFormed_xZZ : ¬ WellFormed xZZ := by
  rintro ⟨k, units, h, htext⟩
  cases h with
  | nil => simp [xZZ] at htext
  | cons hb _ =>
    cases hb with
    | plain hne =>
      simp only [xZZ, List.flatten_cons, List.singleton_append, List.cons.injEq] at htext
      exact hne htext.1.symm
    | named hl =>
      simp only [xZZ, backslash, List.flatten_cons, List.cons_append, List.nil_append, List.cons.injEq] at htext
      -- `x` is no letter of a named escape
      have hx : (0x78 : UInt8) ∈ goEscapes.map Prod.fst := htext.2.1 ▸ List.mem_map_of_mem (f := Prod.fst) hl
      exact absurd hx (by decide)
    | hex h₁ =>
      simp only [xZZ, backslash, List.flatten_cons, List.cons_append, List.nil_append, List.cons.injEq] at htext
      rw [← htext.2.2.1] at h₁
      revert h₁
      decide
    | octal h₁ =>
      simp only [xZZ, backslash, List.flatten_cons, List.cons_append, List.nil_append, List.cons.injEq] at htext
      rw [← htext.2.1] at h₁
      revert h₁
      decide

/-- The decoder inverts escaping: a byte string escaped a byte at a time, in
any mix of the forms, decodes back to itself, and so does Go-style escaping
with any choice of numeric forms. It does not reject every malformed text:
`\xZZ` is no concatenation of escapes, but its hex scan fails, the error is
dropped and the backslash read into `c` is kept. -/
theorem decodeKey_hex_error_ignored :
    (∀ (k : List UInt8) (units : List (List UInt8)), List.Forall₂ EscapesByte k units →
      decodeKey units.flatten = .ok k) ∧
    (∀ (octal : UInt8 → Bool) (k : List UInt8), decodeKey (escape octal k) = .ok k) ∧
    ¬ WellFormed xZZ ∧ decodeKey xZZ = .ok [backslash] :=
  ⟨fun _ _ h => decodeKey_of_forall₂ h, fun octal k => decodeKey_of_forall₂ (forall₂_escapeByte octal k),
    not_wellFormed_xZZ, by decide⟩

end PlacementDriver.Tools
