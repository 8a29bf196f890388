import PlacementDriver.Placement.Functions
import PlacementDriver.Go.Strings

/-!
# Parsing placement constraints

A placement configuration is a list of constraints separated by `;`, each
written `Function(k1:v1,...,l1,...)OpValue` (`parser.go`). `parseConstraint`
takes a constraint apart with the regular expression
`^(.+)\((.*)\)\s*([<>=]+)\s*([\+\-0-9]+)\s*$`, then checks each part: the
function name against `functionList`, each argument against
`^[a-zA-Z0-9_\-.]+$`, the operator, and the value with `strconv.Atoi`.

Go's `regexp` reports the submatches of the match a backtracking matcher
finds first. For this pattern that is: the longest first group before a `(`
for which the rest matches, then the longest second group before a `)`; the
tail after the `)` has one match at most, since no two of its neighbouring
classes share a character. `matchDotGroup` is that search for a group of `.`
(any character but a newline) closed by a given character.

A configuration of valid constraints, written out and padded with spaces and
tabs around every token, with any number of empty parts between the `;`, is
parsed back to itself.

## Main results

* `matchDotGroup_append`: the search on a text with one closing character.
* `parseArguments_of_padsArgs`: padded arguments are read back.
* `parseConstraint_of_pads`: a padded valid constraint is read back.
* `parseConfig_of_padsConfig`: a padded configuration is read back.
-/

namespace PlacementDriver.Placement

open Go.Strings Go.Strconv

/-- The errors of `ParseConfig`, each with the text its message quotes. -/
inductive ParseError where
  /-- `"bad format constraint '%s'"` -/
  | badFormat (str : String)
  /-- `"unexpected function name '%s'"` -/
  | unexpectedFunctionName (str : String)
  /-- `"invalid argument '%s'"` -/
  | invalidArgument (str : String)
  /-- `expect one of "<", "<=", "=", ">=", ">", but got '%s'` -/
  | unexpectedOp (str : String)
  /-- `"expected integer, but got '%s'"` -/
  | expectedInteger (str : String)
deriving DecidableEq, Repr

/-! ## The constraint pattern -/

/-- `\s` of RE2: `[\t\n\f\r ]`. -/
def isRegexSpace (c : Char) : Bool := c = '\t' || c = '\n' || c = '\x0C' || c = '\r' || c = ' '

/-- `[<>=]`. -/
def isOpChar (c : Char) : Bool := c = '<' || c = '>' || c = '='

/-- `[\+\-0-9]`. -/
def isValueChar (c : Char) : Bool := c = '+' || c = '-' || c.isDigit

/-- The tail `\s*([<>=]+)\s*([\+\-0-9]+)\s*$`, with its two groups. Each run
stops at a character of the next class, so each is taken whole. -/
def matchTail (s : List Char) : Option (List Char × List Char) :=
  match (s.dropWhile isRegexSpace).span isOpChar with
  | ([], _) => none
  | (op, rest) =>
    match (rest.dropWhile isRegexSpace).span isValueChar with
    | ([], _) => none
    | (value, rest) => if rest.all isRegexSpace then some (op, value) else none

/-- A group `(.*)` closed by `delim`, then `k` on the group and what follows
the delimiter, in backtracking order: the group takes another character
(not a newline) before the search tries to close it. `group` is what the group
holds so far. -/
def matchDotGroup {β : Type} (delim : Char) (k : List Char → List Char → Option β) (group : List Char) :
    List Char → Option β
  | [] => none
  | c :: rest =>
    if c = '\n' then none
    else
      match matchDotGroup delim k (group ++ [c]) rest with
      | some m => some m
      | none => if c = delim then k group rest else none

/-- `(.*)\)` and the tail. -/
def matchArguments (s : List Char) : Option (List Char × List Char × List Char) :=
  matchDotGroup ')' (fun args rest => (matchTail rest).map fun (op, value) => (args, op, value)) [] s

/-- `re.FindStringSubmatch(str)`: the groups of `^(.+)\((.*)\)...$`; the
first group must not be empty. -/
def findStringSubmatch (str : List Char) : Option (List Char × List Char × List Char × List Char) :=
  matchDotGroup '(' (fun name rest =>
    if name.isEmpty then none else (matchArguments rest).map fun (args, op, value) => (name, args, op, value))
    [] str

/-! ## The parser -/

/-- `parserFunctionName`. -/
def parserFunctionName (str : List Char) : Except ParseError String :=
  if functionList.contains (String.ofList (trimSpace str)) then .ok (String.ofList (trimSpace str))
  else .error (.unexpectedFunctionName (String.ofList (trimSpace str)))

/-- A character of `[a-zA-Z0-9_\-.]`. -/
def isArgumentChar (c : Char) : Bool := c.isAlphanum || c = '_' || c = '-' || c = '.'

/-- `parseArgument`. -/
def parseArgument (str : List Char) : Except ParseError String :=
  if !(trimSpace str).isEmpty && (trimSpace str).all isArgumentChar then .ok (String.ofList (trimSpace str))
  else .error (.invalidArgument (String.ofList (trimSpace str)))

/-- The loop of `parseArguments` over the parts between commas: a part with a
colon is a filter, split at its first colon (`strings.Index`), any other a
label. -/
def parseArgumentList : List (List Char) → Except ParseError (List Filter × List String)
  | [] => .ok ([], [])
  | sub :: subs =>
    match sub.span (· ≠ ':') with
    | (key, _ :: value) => do
      let key ← parseArgument key
      let value ← parseArgument value
      let (filters, labels) ← parseArgumentList subs
      pure (⟨key, value⟩ :: filters, labels)
    | (_, []) => do
      let label ← parseArgument sub
      let (filters, labels) ← parseArgumentList subs
      pure (filters, label :: labels)

/-- `parseArguments`. -/
def parseArguments (str : List Char) : Except ParseError (List Filter × List String) :=
  if (trimSpace str).isEmpty then .ok ([], []) else parseArgumentList ((trimSpace str).splitOn ',')

/-- The operators of a constraint. -/
def ops : List String := ["<", "<=", "=", ">=", ">"]

/-- `parseOp`. -/
def parseOp (str : List Char) : Except ParseError String :=
  if ops.contains (String.ofList (trimSpace str)) then .ok (String.ofList (trimSpace str))
  else .error (.unexpectedOp (String.ofList (trimSpace str)))

/-- `parseValue`. -/
def parseValue (str : List Char) : Except ParseError Int64 :=
  match atoi (trimSpace str) with
  | some n => .ok n
  | none => .error (.expectedInteger (String.ofList str))

/-- `parseConstraint`. -/
def parseConstraint (str : List Char) : Except ParseError Constraint :=
  match findStringSubmatch str with
  | none => .error (.badFormat (String.ofList str))
  | some (name, args, op, value) => do
    let function ← parserFunctionName name
    let (filters, labels) ← parseArguments args
    let op ← parseOp op
    let value ← parseValue value
    pure ⟨function, filters, labels, op, value⟩

/-- The loop of `ParseConfig` over the parts between semicolons, which skips
the empty ones. -/
def parseConfigList : List (List Char) → Except ParseError (List Constraint)
  | [] => .ok []
  | sub :: subs =>
    if sub.isEmpty then parseConfigList subs
    else do
      let c ← parseConstraint sub
      let cs ← parseConfigList subs
      pure (c :: cs)

/-- `ParseConfig(str)`: the constraints of the `Config`. -/
def parseConfig (str : List Char) : Except ParseError (List Constraint) := parseConfigList (str.splitOn ';')

/-! ## Written configurations -/

/-- A text that `^[a-zA-Z0-9_\-.]+$` matches. -/
def IsArgument (s : String) : Prop := s.toList ≠ [] ∧ ∀ c ∈ s.toList, isArgumentChar c = true

instance isArgumentDecidable (s : String) : Decidable (IsArgument s) := inferInstanceAs (Decidable (_ ∧ _))

/-- An argument of a constraint's function: a filter or a label. -/
inductive Arg where
  | filter (f : Filter)
  | label (l : String)

namespace Arg

/-- What the parser can read back. -/
def Valid : Arg → Prop
  | .filter f => IsArgument f.key ∧ IsArgument f.value
  | .label l => IsArgument l

/-- The filter an argument is, if it is one. -/
def toFilter? : Arg → Option Filter
  | .filter f => some f
  | .label _ => none

/-- The label an argument is, if it is one. -/
def toLabel? : Arg → Option String
  | .filter _ => none
  | .label l => some l

/-- `key:value` or the label. -/
def render : Arg → List Char
  | .filter f => f.key.toList ++ ':' :: f.value.toList
  | .label l => l.toList

end Arg

/-- The arguments of a constraint as its text lists them, filters first. -/
def Constraint.args (c : Constraint) : List Arg := c.filters.map .filter ++ c.labels.map .label

/-- What the parser can read back: a known function, arguments of argument
characters and a known operator; any value. -/
structure Constraint.Valid (c : Constraint) : Prop where
  function_mem : c.function ∈ functionList
  filters_valid : ∀ f ∈ c.filters, IsArgument f.key ∧ IsArgument f.value
  labels_valid : ∀ l ∈ c.labels, IsArgument l
  op_mem : c.op ∈ ops

instance constraintValidDecidable (c : Constraint) : Decidable c.Valid :=
  decidable_of_iff (c.function ∈ functionList ∧ (∀ f ∈ c.filters, IsArgument f.key ∧ IsArgument f.value) ∧
      (∀ l ∈ c.labels, IsArgument l) ∧ c.op ∈ ops)
    ⟨fun ⟨h₁, h₂, h₃, h₄⟩ => ⟨h₁, h₂, h₃, h₄⟩, fun ⟨h₁, h₂, h₃, h₄⟩ => ⟨h₁, h₂, h₃, h₄⟩⟩

/-- `Function(k1:v1,...,l1,...)OpValue`, the value as `strconv.Itoa` writes
it. -/
def render (c : Constraint) : List Char :=
  c.function.toList ++ '(' :: [','].intercalate (c.args.map Arg.render) ++ ')' :: c.op.toList ++ itoa c.value

/-- The constraints of a configuration joined with `;`. -/
def renderConfig (cs : List Constraint) : List Char := [';'].intercalate (cs.map render)

/-- An argument with blanks around it, and around the colon of a filter. -/
inductive PadsArg : Arg → List Char → Prop where
  | filter {f : Filter} {q₀ q₁ q₂ q₃ : List Char} : IsBlank q₀ → IsBlank q₁ → IsBlank q₂ → IsBlank q₃ →
      PadsArg (.filter f) (q₀ ++ f.key.toList ++ q₁ ++ ':' :: (q₂ ++ f.value.toList ++ q₃))
  | label {l : String} {q₀ q₁ : List Char} : IsBlank q₀ → IsBlank q₁ → PadsArg (.label l) (q₀ ++ l.toList ++ q₁)

/-- A constraint written with blanks around its function name, its
parentheses, the commas and colons of its arguments, its operator and its
value. -/
inductive Pads (c : Constraint) : List Char → Prop where
  | mk {p₀ p₁ p₂ p₃ p₄ p₅ p₆ : List Char} {ts : List (List Char)} :
      IsBlank p₀ → IsBlank p₁ → IsBlank p₂ → IsBlank p₃ → IsBlank p₄ → IsBlank p₅ → IsBlank p₆ →
      List.Forall₂ PadsArg c.args ts →
      Pads c (p₀ ++ c.function.toList ++ p₁ ++ '(' :: (p₂ ++ [','].intercalate ts ++ p₃) ++
        ')' :: (p₄ ++ c.op.toList ++ p₅ ++ itoa c.value ++ p₆))

/-- A configuration written constraint by constraint, each padded, joined
with `;`, with empty parts anywhere between. -/
def PadsConfig (cs : List Constraint) (text : List Char) : Prop :=
  ∃ parts : List (List Char), text = [';'].intercalate parts ∧
    List.Forall₂ Pads cs (parts.filter fun part => !part.isEmpty)

/-! ## The search for a group -/

section DotGroup

variable {β : Type} {delim : Char} {k : List Char → List Char → Option β}

/-- With no closing character ahead, the search fails. -/
theorem matchDotGroup_eq_none {s : List Char} (hs : delim ∉ s) (group : List Char) :
    matchDotGroup delim k group s = none := by
  induction s generalizing group with
  | nil => rfl
  | cons c rest ih =>
    have hc : c ≠ delim := fun h => hs (h ▸ List.mem_cons_self)
    rw [matchDotGroup, ih (fun h => hs (List.mem_cons_of_mem c h))]
    simp [hc]

/-- On a text whose only closing character comes after a stretch with no
newline, the search closes the group there. -/
theorem matchDotGroup_append (hd : delim ≠ '\n') {x rest : List Char} (hx : ∀ c ∈ x, c ≠ '\n' ∧ c ≠ delim)
    (hrest : delim ∉ rest) (group : List Char) :
    matchDotGroup delim k group (x ++ delim :: rest) = k (group ++ x) rest := by
  induction x generalizing group with
  | nil =>
    -- the group cannot take the delimiter, as no later one closes it
    rw [List.nil_append, matchDotGroup, if_neg hd, matchDotGroup_eq_none hrest, List.append_nil]
    simp
  | cons c x ih =>
    obtain ⟨hnl, hne⟩ := hx c List.mem_cons_self
    rw [List.cons_append, matchDotGroup, if_neg hnl, ih (fun c hc => hx c (List.mem_cons_of_mem _ hc)),
      List.append_assoc, List.singleton_append]
    cases k (group ++ c :: x) rest <;> simp [hne]

end DotGroup

/-! ## Characters -/

/-- Argument characters are the printable ASCII ones from `-` to `z`. -/
theorem toNat_of_isArgumentChar {c : Char} (h : isArgumentChar c = true) : 45 ≤ c.toNat ∧ c.toNat ≤ 122 := by
  simp only [isArgumentChar, Char.isAlphanum, Char.isAlpha, Char.isUpper, Char.isLower, Char.isDigit, Bool.or_eq_true,
    Bool.and_eq_true, decide_eq_true_eq, UInt32.le_iff_toNat_le, ge_iff_le] at h
  have hval : c.toNat = c.val.toNat := rfl
  have hA : 'A'.val.toNat = 65 := rfl
  have hZ : 'Z'.val.toNat = 90 := rfl
  have ha : 'a'.val.toNat = 97 := rfl
  have hz : 'z'.val.toNat = 122 := rfl
  have h0 : '0'.val.toNat = 48 := rfl
  have h9 : '9'.val.toNat = 57 := rfl
  rcases h with ((((h | h) | h) | h) | h) | h
  all_goals first | omega | (subst h; decide)

theorem isSpace_eq_false_of_isArgumentChar {c : Char} (h : isArgumentChar c = true) : isSpace c = false := by
  have hrange := toNat_of_isArgumentChar h
  cases hs : isSpace c with
  | false => rfl
  | true => have := toNat_of_isSpace hs; omega

/-- Two characters apart by a class. -/
theorem ne_of_class {P : Char → Bool} {c d : Char} (hc : P c = true) (hd : P d = false) : c ≠ d := by
  rintro rfl
  rw [hc] at hd
  exact Bool.noConfusion hd

/-- The characters before the `(` of a written constraint. -/
def isNameChar (c : Char) : Bool := c = ' ' || c = '\t' || isArgumentChar c

/-- The characters of one argument with its blanks. -/
def isPartChar (c : Char) : Bool := c = ' ' || c = '\t' || c = ':' || isArgumentChar c

/-- The characters between the parentheses. -/
def isArgsChar (c : Char) : Bool := isPartChar c || c = ','

/-- The characters after the `)`. -/
def isTailChar (c : Char) : Bool := c = ' ' || c = '\t' || isOpChar c || isValueChar c

theorem isPartChar_of_isBlank {p : List Char} (h : IsBlank p) : ∀ c ∈ p, isPartChar c = true := by
  intro c hc
  rcases h c hc with rfl | rfl <;> rfl

theorem isPartChar_of_isArgument {s : String} (h : IsArgument s) : ∀ c ∈ s.toList, isPartChar c = true := by
  intro c hc
  simp [isPartChar, h.2 c hc]

theorem functionList_chars : ∀ f ∈ functionList, f.toList ≠ [] ∧ ∀ c ∈ f.toList, isArgumentChar c = true := by
  simp [functionList, isArgumentChar]

theorem ops_chars : ∀ o ∈ ops, o.toList ≠ [] ∧ ∀ c ∈ o.toList, isOpChar c = true := by
  simp [ops, isOpChar]

/-! ## The tail -/

theorem isRegexSpace_of_isBlank {p : List Char} (h : IsBlank p) : ∀ c ∈ p, isRegexSpace c = true := by
  intro c hc
  rcases h c hc with rfl | rfl <;> rfl

theorem isRegexSpace_of_isOpChar {c : Char} (h : isOpChar c = true) : isRegexSpace c = false := by
  simp only [isOpChar, Bool.or_eq_true, decide_eq_true_eq] at h
  rcases h with (rfl | rfl) | rfl <;> rfl

/-- A written value holds no operator character and no space. -/
theorem itoa_chars (v : Int64) :
    ∀ c ∈ itoa v, isValueChar c = true ∧ isOpChar c = false ∧ isRegexSpace c = false := by
  intro c hc
  rcases mem_itoa hc with rfl | hdigit
  · decide
  · -- a digit is none of the characters of the other classes, which lie outside `'0'` to `'9'`
    have hrange := toNat_of_isDigit hdigit
    have hne : ∀ d : Char, (d.toNat < 48 ∨ 57 < d.toNat) → c ≠ d := by
      rintro d hd rfl
      omega
    simp [isValueChar, isOpChar, isRegexSpace, hdigit, hne '<' (by decide), hne '>' (by decide),
      hne '=' (by decide), hne '\t' (by decide), hne '\n' (by decide), hne '\x0C' (by decide), hne '\r' (by decide),
      hne ' ' (by decide)]

/-- The tail of a written constraint matches with the operator and the
value as its groups. -/
theorem matchTail_pad {p₄ p₅ p₆ : List Char} (h₄ : IsBlank p₄) (h₅ : IsBlank p₅) (h₆ : IsBlank p₆)
    {op : String} (hop : op ∈ ops) (v : Int64) :
    matchTail (p₄ ++ op.toList ++ p₅ ++ itoa v ++ p₆) = some (op.toList, itoa v) := by
  obtain ⟨hne, hopc⟩ := ops_chars op hop
  obtain ⟨o, os, hos⟩ := List.exists_cons_of_ne_nil hne
  obtain ⟨d, ds, hds⟩ := List.exists_cons_of_ne_nil (itoa_ne_nil v)
  have hopHead : isRegexSpace o = false := isRegexSpace_of_isOpChar (hopc o (hos ▸ List.mem_cons_self))
  -- what follows the operator holds no operator character, and the value no space
  have hafter : ∀ c ∈ p₅ ++ itoa v ++ p₆, isOpChar c = false := by
    intro c hc
    rcases List.mem_append.mp hc with hc | hc
    · rcases List.mem_append.mp hc with hc | hc
      · rcases h₅ c hc with rfl | rfl <;> rfl
      · exact (itoa_chars v c hc).2.1
    · rcases h₆ c hc with rfl | rfl <;> rfl
  have hvalueHead : isRegexSpace d = false := (itoa_chars v d (hds ▸ List.mem_cons_self)).2.2
  have hrest : ∀ c ∈ p₆, isValueChar c = false := by
    intro c hc
    rcases h₆ c hc with rfl | rfl <;> rfl
  have hdrop₁ : (p₄ ++ op.toList ++ p₅ ++ itoa v ++ p₆).dropWhile isRegexSpace =
      op.toList ++ (p₅ ++ itoa v ++ p₆) := by
    simp only [List.append_assoc]
    rw [List.dropWhile_append_of_pos (isRegexSpace_of_isBlank h₄), hos, List.cons_append]
    exact dropWhile_of_head (by simpa using hopHead)
  have hdrop₂ : (p₅ ++ itoa v ++ p₆).dropWhile isRegexSpace = itoa v ++ p₆ := by
    rw [List.append_assoc, List.dropWhile_append_of_pos (isRegexSpace_of_isBlank h₅), hds, List.cons_append]
    exact dropWhile_of_head (by simpa using hvalueHead)
  have hspan₁ := span_append_of_forall (p := isOpChar) hopc
    (fun c hc => hafter c (List.mem_of_mem_head? hc))
  have hspan₂ := span_append_of_forall (p := isValueChar) (fun c hc => (itoa_chars v c hc).1)
    (fun c hc => hrest c (List.mem_of_mem_head? hc))
  rw [matchTail, hdrop₁, hspan₁, hos]
  simp only
  rw [← hos, hdrop₂, hspan₂, hds]
  simp only
  rw [← hds, if_pos (List.all_eq_true.mpr (isRegexSpace_of_isBlank h₆))]

/-! ## Arguments -/

theorem Constraint.Valid.args {c : Constraint} (hc : c.Valid) : ∀ a ∈ c.args, a.Valid := by
  intro a ha
  rcases List.mem_append.mp ha with ha | ha
  · obtain ⟨f, hf, rfl⟩ := List.mem_map.mp ha
    exact hc.filters_valid f hf
  · obtain ⟨l, hl, rfl⟩ := List.mem_map.mp ha
    exact hc.labels_valid l hl

theorem filterMap_toFilter?_args (c : Constraint) : c.args.filterMap Arg.toFilter? = c.filters := by
  simp [Constraint.args, List.filterMap_append, List.filterMap_map, Function.comp_def, Arg.toFilter?]

theorem filterMap_toLabel?_args (c : Constraint) : c.args.filterMap Arg.toLabel? = c.labels := by
  simp [Constraint.args, List.filterMap_append, List.filterMap_map, Function.comp_def, Arg.toLabel?]

theorem IsArgument.not_space {s : String} (h : IsArgument s) : ∀ c ∈ s.toList, isSpace c = false :=
  fun c hc => isSpace_eq_false_of_isArgumentChar (h.2 c hc)

/-- An argument with blanks around it reads as itself. -/
theorem parseArgument_pad {q₀ q₁ : List Char} (h₀ : IsBlank q₀) (h₁ : IsBlank q₁) {s : String} (hs : IsArgument s) :
    parseArgument (q₀ ++ s.toList ++ q₁) = .ok s := by
  have htrim : trimSpace (q₀ ++ s.toList ++ q₁) = s.toList := by
    rw [trimSpace_blank_append h₀ h₁, trimSpace_of_forall hs.not_space]
  have hall : s.toList.all isArgumentChar = true := List.all_eq_true.mpr hs.2
  have hne : s.toList.isEmpty = false := List.isEmpty_eq_false_iff.mpr hs.1
  rw [parseArgument, htrim, hne, hall, String.ofList_toList]
  rfl

theorem PadsArg.chars {a : Arg} {t : List Char} (h : PadsArg a t) (ha : a.Valid) : ∀ c ∈ t, isPartChar c = true := by
  cases h with
  | filter h₀ h₁ h₂ h₃ =>
    intro c hc
    simp only [List.mem_append, List.mem_cons] at hc
    rcases hc with (((hc | hc) | hc) | rfl | (hc | hc) | hc)
    · exact isPartChar_of_isBlank h₀ c hc
    · exact isPartChar_of_isArgument ha.1 c hc
    · exact isPartChar_of_isBlank h₁ c hc
    · rfl
    · exact isPartChar_of_isBlank h₂ c hc
    · exact isPartChar_of_isArgument ha.2 c hc
    · exact isPartChar_of_isBlank h₃ c hc
  | label h₀ h₁ =>
    intro c hc
    simp only [List.mem_append] at hc
    rcases hc with (hc | hc) | hc
    · exact isPartChar_of_isBlank h₀ c hc
    · exact isPartChar_of_isArgument ha c hc
    · exact isPartChar_of_isBlank h₁ c hc

/-- Trimming the front of an argument keeps it an argument with blanks
around it. -/
theorem PadsArg.dropWhile {a : Arg} {t : List Char} (h : PadsArg a t) (ha : a.Valid) :
    PadsArg a (t.dropWhile isSpace) ∧ t.dropWhile isSpace ≠ [] := by
  cases h with
  | filter h₀ h₁ h₂ h₃ =>
    obtain ⟨x, xs, hx⟩ := List.exists_cons_of_ne_nil ha.1.1
    have hhead : isSpace x = false := ha.1.not_space x (hx ▸ List.mem_cons_self)
    have hdrop : ∀ rest : List Char, (x :: xs ++ rest).dropWhile isSpace = x :: xs ++ rest :=
      fun rest => dropWhile_of_head (by simpa using hhead)
    simp only [List.append_assoc]
    rw [List.dropWhile_append_of_pos h₀.isSpace, hx, hdrop, ← hx]
    refine ⟨?_, by simp [hx]⟩
    simpa [List.append_assoc] using PadsArg.filter isBlank_nil h₁ h₂ h₃
  | label h₀ h₁ =>
    obtain ⟨x, xs, hx⟩ := List.exists_cons_of_ne_nil ha.1
    have hhead : isSpace x = false := ha.not_space x (hx ▸ List.mem_cons_self)
    simp only [List.append_assoc]
    rw [List.dropWhile_append_of_pos h₀.isSpace, hx, List.cons_append, dropWhile_of_head (by simpa using hhead),
      ← List.cons_append, ← hx]
    refine ⟨?_, by simp [hx]⟩
    simpa using PadsArg.label isBlank_nil h₁

/-- Trimming the back of an argument keeps it an argument with blanks around
it. -/
theorem PadsArg.rdropWhile {a : Arg} {t : List Char} (h : PadsArg a t) (ha : a.Valid) :
    PadsArg a (t.rdropWhile isSpace) ∧ t.rdropWhile isSpace ≠ [] := by
  cases h with
  | @filter f q₀ q₁ q₂ q₃ h₀ h₁ h₂ h₃ =>
    have hvalue := rdropWhile_of_forall ha.2.not_space
    have htext : q₀ ++ f.key.toList ++ q₁ ++ ':' :: (q₂ ++ f.value.toList ++ q₃) =
        (q₀ ++ f.key.toList ++ q₁ ++ ':' :: q₂) ++ f.value.toList ++ q₃ := by
      simp
    rw [htext, rdropWhile_append_of_pos h₃.isSpace,
      rdropWhile_append_of_ne_nil (by rw [hvalue]; exact ha.2.1), hvalue]
    refine ⟨?_, by simp⟩
    simpa using PadsArg.filter (f := f) h₀ h₁ h₂ isBlank_nil
  | label h₀ h₁ =>
    have hlabel := rdropWhile_of_forall ha.not_space
    rw [rdropWhile_append_of_pos h₁.isSpace, rdropWhile_append_of_ne_nil (by rw [hlabel]; exact ha.1), hlabel]
    refine ⟨?_, by simp [ha.1]⟩
    simpa using PadsArg.label h₀ isBlank_nil

/-- No colon stands in an argument with blanks around it. -/
theorem ne_colon_of_pad {q₀ q₁ : List Char} (h₀ : IsBlank q₀) (h₁ : IsBlank q₁) {s : String} (hs : IsArgument s) :
    ∀ c ∈ q₀ ++ s.toList ++ q₁, decide (c ≠ ':') = true := by
  intro c hc
  simp only [List.mem_append] at hc
  rw [decide_eq_true_iff]
  rcases hc with (hc | hc) | hc
  · rcases h₀ c hc with rfl | rfl <;> decide
  · exact ne_of_class (hs.2 c hc) (by decide)
  · rcases h₁ c hc with rfl | rfl <;> decide

/-- The loop reads each padded argument back: the filters in order, and the
labels in order. -/
theorem parseArgumentList_of_padsArgs {as : List Arg} {ts : List (List Char)} (h : List.Forall₂ PadsArg as ts)
    (has : ∀ a ∈ as, a.Valid) :
    parseArgumentList ts = .ok (as.filterMap Arg.toFilter?, as.filterMap Arg.toLabel?) := by
  induction h with
  | nil => rfl
  | @cons a t as ts ha _ ih =>
    have hrest := ih fun b hb => has b (List.mem_cons_of_mem a hb)
    have hva := has a List.mem_cons_self
    cases ha with
    | @filter f q₀ q₁ q₂ q₃ h₀ h₁ h₂ h₃ =>
      -- the first colon of the part is the filter's own
      have hspan : (q₀ ++ f.key.toList ++ q₁ ++ ':' :: (q₂ ++ f.value.toList ++ q₃)).span (· ≠ ':') =
          (q₀ ++ f.key.toList ++ q₁, ':' :: (q₂ ++ f.value.toList ++ q₃)) :=
        span_append_of_forall (ne_colon_of_pad h₀ h₁ hva.1) (by simp)
      rw [parseArgumentList, hspan]
      simp only [parseArgument_pad h₀ h₁ hva.1, parseArgument_pad h₂ h₃ hva.2, hrest]
      rfl
    | @label l q₀ q₁ h₀ h₁ =>
      have hspan : (q₀ ++ l.toList ++ q₁).span (· ≠ ':') = (q₀ ++ l.toList ++ q₁, []) := by
        simpa using @span_append_of_forall Char _ _ [] (ne_colon_of_pad h₀ h₁ hva) (by simp)
      rw [parseArgumentList, hspan]
      simp only [parseArgument_pad h₀ h₁ hva, hrest]
      rfl

/-- The padded arguments joined with commas, trimmed at the front, are padded
arguments joined with commas. -/
theorem dropWhile_intercalate_padsArgs {as : List Arg} {ts : List (List Char)} (h : List.Forall₂ PadsArg as ts)
    (has : ∀ a ∈ as, a.Valid) (hts : ts ≠ []) :
    ∃ ts', List.Forall₂ PadsArg as ts' ∧ ([','].intercalate ts).dropWhile isSpace = [','].intercalate ts' := by
  cases h with
  | nil => exact absurd rfl hts
  | @cons a t as ts ha hrest =>
    obtain ⟨ha', hne⟩ := ha.dropWhile (has a List.mem_cons_self)
    refine ⟨t.dropWhile isSpace :: ts, .cons ha' hrest, ?_⟩
    have hne' : (t.dropWhile isSpace).isEmpty = false := List.isEmpty_eq_false_iff.mpr hne
    rw [intercalate_cons_eq_append, List.dropWhile_append, hne', if_neg Bool.false_ne_true,
      ← intercalate_cons_eq_append]

/-- The same at the back. -/
theorem rdropWhile_intercalate_padsArgs {as : List Arg} {ts : List (List Char)} (h : List.Forall₂ PadsArg as ts)
    (has : ∀ a ∈ as, a.Valid) (hts : ts ≠ []) :
    ∃ ts', List.Forall₂ PadsArg as ts' ∧ ([','].intercalate ts).rdropWhile isSpace = [','].intercalate ts' ∧
      [','].intercalate ts' ≠ [] := by
  induction h with
  | nil => exact absurd rfl hts
  | @cons a t as ts ha hrest ih =>
    obtain ⟨ha', hne⟩ := ha.rdropWhile (has a List.mem_cons_self)
    cases ts with
    | nil =>
      cases hrest
      exact ⟨[t.rdropWhile isSpace], .cons ha' .nil, by simp, by simpa using hne⟩
    | cons u us =>
      -- the back of the join is the back of its last parts
      obtain ⟨ts', hts', heq, hne'⟩ := ih (fun b hb => has b (List.mem_cons_of_mem a hb)) (List.cons_ne_nil u us)
      have hts'ne : ts' ≠ [] := by
        rintro rfl
        exact hne' rfl
      refine ⟨t :: ts', .cons ha hts', ?_, by simp [List.intercalate_cons_of_ne_nil hts'ne]⟩
      rw [List.intercalate_cons_of_ne_nil (List.cons_ne_nil u us), rdropWhile_append_of_ne_nil (heq ▸ hne'), heq,
        List.intercalate_cons_of_ne_nil hts'ne]

theorem Forall₂.exists_of_mem {α γ : Type} {R : α → γ → Prop} {as : List α} {ts : List γ}
    (h : List.Forall₂ R as ts) {t : γ} (ht : t ∈ ts) : ∃ a ∈ as, R a t := by
  induction h with
  | nil => nomatch ht
  | @cons a t' as ts hR _ ih =>
    rcases List.mem_cons.mp ht with rfl | ht
    · exact ⟨a, List.mem_cons_self, hR⟩
    · obtain ⟨b, hb, hRb⟩ := ih ht
      exact ⟨b, List.mem_cons_of_mem a hb, hRb⟩

theorem Forall₂.ne_nil {α γ : Type} {R : α → γ → Prop} {as : List α} {ts ts' : List γ}
    (h : List.Forall₂ R as ts) (h' : List.Forall₂ R as ts') (hts : ts ≠ []) : ts' ≠ [] := by
  rintro rfl
  rw [List.forall₂_nil_right_iff] at h'
  subst h'
  exact hts (List.forall₂_nil_left_iff.mp h)

/-- The arguments between the parentheses, padded, read back as the
constraint's filters and labels. -/
theorem parseArguments_of_padsArgs {c : Constraint} (hc : c.Valid) {p₂ p₃ : List Char} (h₂ : IsBlank p₂)
    (h₃ : IsBlank p₃) {ts : List (List Char)} (hts : List.Forall₂ PadsArg c.args ts) :
    parseArguments (p₂ ++ [','].intercalate ts ++ p₃) = .ok (c.filters, c.labels) := by
  rw [parseArguments, trimSpace_blank_append h₂ h₃]
  by_cases hnil : ts = []
  · -- no arguments: the region is blank
    subst hnil
    have hargs : c.args = [] := List.forall₂_nil_right_iff.mp hts
    have hempty : c.filters = [] ∧ c.labels = [] := by simpa [Constraint.args] using hargs
    simp [trimSpace, hempty]
  · obtain ⟨ts₁, hts₁, hdrop⟩ := dropWhile_intercalate_padsArgs hts hc.args hnil
    obtain ⟨ts₂, hts₂, hrdrop, hne⟩ := rdropWhile_intercalate_padsArgs hts₁ hc.args (Forall₂.ne_nil hts hts₁ hnil)
    have hcomma : ∀ t ∈ ts₂, ',' ∉ t := by
      intro t ht hmem
      obtain ⟨a, ha, hpad⟩ := Forall₂.exists_of_mem hts₂ ht
      exact absurd (hpad.chars (hc.args a ha) ',' hmem) (by decide)
    rw [trimSpace, hdrop, hrdrop, if_neg (by simpa using hne), List.splitOn_intercalate ',' hcomma
      (Forall₂.ne_nil hts hts₂ hnil), parseArgumentList_of_padsArgs hts₂ hc.args, filterMap_toFilter?_args,
      filterMap_toLabel?_args]

/-! ## A written constraint -/

section Written

variable {c : Constraint} {p₀ p₁ p₂ p₃ p₄ p₅ p₆ : List Char} {ts : List (List Char)}

theorem isNameChar_of_pad (hc : c.Valid) (h₀ : IsBlank p₀) (h₁ : IsBlank p₁) :
    ∀ ch ∈ p₀ ++ c.function.toList ++ p₁, isNameChar ch = true := by
  intro ch hch
  simp only [List.mem_append] at hch
  rcases hch with (hch | hch) | hch
  · rcases h₀ ch hch with rfl | rfl <;> rfl
  · simp [isNameChar, (functionList_chars _ hc.function_mem).2 ch hch]
  · rcases h₁ ch hch with rfl | rfl <;> rfl

theorem isArgsChar_of_pad (hc : c.Valid) (h₂ : IsBlank p₂) (h₃ : IsBlank p₃) (hts : List.Forall₂ PadsArg c.args ts) :
    ∀ ch ∈ p₂ ++ [','].intercalate ts ++ p₃, isArgsChar ch = true := by
  have hparts : ∀ t ∈ ts, ∀ ch ∈ t, isArgsChar ch = true := by
    intro t ht ch hch
    obtain ⟨a, ha, hpad⟩ := Forall₂.exists_of_mem hts ht
    simp [isArgsChar, hpad.chars (hc.args a ha) ch hch]
  intro ch hch
  simp only [List.mem_append] at hch
  rcases hch with (hch | hch) | hch
  · rcases h₂ ch hch with rfl | rfl <;> rfl
  · exact forall_mem_intercalate (fun x hx => by rw [List.mem_singleton.mp hx]; rfl) hparts ch hch
  · rcases h₃ ch hch with rfl | rfl <;> rfl

theorem isTailChar_of_pad (hc : c.Valid) (h₄ : IsBlank p₄) (h₅ : IsBlank p₅) (h₆ : IsBlank p₆) :
    ∀ ch ∈ p₄ ++ c.op.toList ++ p₅ ++ itoa c.value ++ p₆, isTailChar ch = true := by
  intro ch hch
  simp only [List.mem_append] at hch
  rcases hch with (((hch | hch) | hch) | hch) | hch
  · rcases h₄ ch hch with rfl | rfl <;> rfl
  · simp [isTailChar, (ops_chars _ hc.op_mem).2 ch hch]
  · rcases h₅ ch hch with rfl | rfl <;> rfl
  · simp [isTailChar, (itoa_chars c.value ch hch).1]
  · rcases h₆ ch hch with rfl | rfl <;> rfl

/-- The pattern takes a written constraint apart at its parentheses: the
first group is the name with its blanks, the second the arguments with
theirs, then the operator and the value. -/
theorem findStringSubmatch_pads (hc : c.Valid) (h₀ : IsBlank p₀) (h₁ : IsBlank p₁) (h₂ : IsBlank p₂)
    (h₃ : IsBlank p₃) (h₄ : IsBlank p₄) (h₅ : IsBlank p₅) (h₆ : IsBlank p₆) (hts : List.Forall₂ PadsArg c.args ts) :
    findStringSubmatch (p₀ ++ c.function.toList ++ p₁ ++ '(' :: (p₂ ++ [','].intercalate ts ++ p₃) ++
        ')' :: (p₄ ++ c.op.toList ++ p₅ ++ itoa c.value ++ p₆)) =
      some (p₀ ++ c.function.toList ++ p₁, p₂ ++ [','].intercalate ts ++ p₃, c.op.toList, itoa c.value) := by
  have hname := isNameChar_of_pad hc h₀ h₁
  have hargs := isArgsChar_of_pad hc h₂ h₃ hts
  have htail := isTailChar_of_pad hc h₄ h₅ h₆
  have hnameNe : (p₀ ++ c.function.toList ++ p₁).isEmpty = false := by
    simp [(functionList_chars _ hc.function_mem).1]
  -- the only `(` of the text follows the name, and the only `)` follows the arguments
  have hopen : '(' ∉ p₂ ++ [','].intercalate ts ++ p₃ ++ ')' :: (p₄ ++ c.op.toList ++ p₅ ++ itoa c.value ++ p₆) := by
    intro hmem
    rcases List.mem_append.mp hmem with hmem | hmem
    · exact absurd (hargs '(' hmem) (by decide)
    · rcases List.mem_cons.mp hmem with hmem | hmem
      · exact absurd hmem (by decide)
      · exact absurd (htail '(' hmem) (by decide)
  have hclose : ')' ∉ p₄ ++ c.op.toList ++ p₅ ++ itoa c.value ++ p₆ :=
    fun hmem => absurd (htail ')' hmem) (by decide)
  have htext : p₀ ++ c.function.toList ++ p₁ ++ '(' :: (p₂ ++ [','].intercalate ts ++ p₃) ++
        ')' :: (p₄ ++ c.op.toList ++ p₅ ++ itoa c.value ++ p₆) =
      (p₀ ++ c.function.toList ++ p₁) ++ '(' :: (p₂ ++ [','].intercalate ts ++ p₃ ++
        ')' :: (p₄ ++ c.op.toList ++ p₅ ++ itoa c.value ++ p₆)) := by
    simp
  rw [htext, findStringSubmatch, matchDotGroup_append (by decide)
    (fun ch hch => ⟨ne_of_class (hname ch hch) (by decide), ne_of_class (hname ch hch) (by decide)⟩) hopen]
  simp only [List.nil_append, hnameNe, Bool.false_eq_true, if_false]
  rw [matchArguments, matchDotGroup_append (by decide)
    (fun ch hch => ⟨ne_of_class (hargs ch hch) (by decide), ne_of_class (hargs ch hch) (by decide)⟩) hclose,
    List.nil_append, matchTail_pad h₄ h₅ h₆ hc.op_mem c.value]
  rfl

theorem parserFunctionName_pad (hc : c.Valid) (h₀ : IsBlank p₀) (h₁ : IsBlank p₁) :
    parserFunctionName (p₀ ++ c.function.toList ++ p₁) = .ok c.function := by
  have hchars := (functionList_chars _ hc.function_mem).2
  rw [parserFunctionName, trimSpace_blank_append h₀ h₁,
    trimSpace_of_forall fun ch hch => isSpace_eq_false_of_isArgumentChar (hchars ch hch), String.ofList_toList,
    if_pos (List.elem_iff.mpr hc.function_mem)]

theorem parseOp_op (hc : c.Valid) : parseOp c.op.toList = .ok c.op := by
  have hchars := (ops_chars _ hc.op_mem).2
  have hspace : ∀ ch ∈ c.op.toList, isSpace ch = false := by
    intro ch hch
    have := hchars ch hch
    simp only [isOpChar, Bool.or_eq_true, decide_eq_true_eq] at this
    rcases this with (rfl | rfl) | rfl <;> rfl
  rw [parseOp, trimSpace_of_forall hspace, String.ofList_toList, if_pos (List.elem_iff.mpr hc.op_mem)]

theorem parseValue_itoa (v : Int64) : parseValue (itoa v) = .ok v := by
  have hspace : ∀ ch ∈ itoa v, isSpace ch = false := by
    intro ch hch
    rcases mem_itoa hch with rfl | hdigit
    · rfl
    · have hrange := toNat_of_isDigit hdigit
      cases hs : isSpace ch with
      | false => rfl
      | true => have := toNat_of_isSpace hs; omega
  rw [parseValue, trimSpace_of_forall hspace, atoi_itoa]

/-- A valid constraint, written with blanks around its tokens, reads back as
itself. -/
theorem parseConstraint_of_pads (hc : c.Valid) {t : List Char} (h : Pads c t) : parseConstraint t = .ok c := by
  cases h with
  | mk h₀ h₁ h₂ h₃ h₄ h₅ h₆ hts =>
    rw [parseConstraint, findStringSubmatch_pads hc h₀ h₁ h₂ h₃ h₄ h₅ h₆ hts]
    simp only [parserFunctionName_pad hc h₀ h₁, parseArguments_of_padsArgs hc h₂ h₃ hts, parseOp_op hc,
      parseValue_itoa]
    rfl

/-- A written constraint holds no `;`. -/
theorem Pads.semicolon (hc : c.Valid) {t : List Char} (h : Pads c t) : ';' ∉ t := by
  cases h with
  | mk h₀ h₁ h₂ h₃ h₄ h₅ h₆ hts =>
    intro hmem
    rcases List.mem_append.mp hmem with hmem | hmem
    · rcases List.mem_append.mp hmem with hmem | hmem
      · exact absurd (isNameChar_of_pad hc h₀ h₁ ';' hmem) (by decide)
      · rcases List.mem_cons.mp hmem with hmem | hmem
        · exact absurd hmem (by decide)
        · exact absurd (isArgsChar_of_pad hc h₂ h₃ hts ';' hmem) (by decide)
    · rcases List.mem_cons.mp hmem with hmem | hmem
      · exact absurd hmem (by decide)
      · exact absurd (isTailChar_of_pad hc h₄ h₅ h₆ ';' hmem) (by decide)

end Written

/-! ## A written configuration -/

/-- The loop reads the written constraints back, skipping the empty parts. -/
theorem parseConfigList_of_forall₂ {cs : List Constraint} (hcs : ∀ c ∈ cs, c.Valid) {parts : List (List Char)}
    (h : List.Forall₂ Pads cs (parts.filter fun part => !part.isEmpty)) : parseConfigList parts = .ok cs := by
  induction parts generalizing cs with
  | nil =>
    cases h
    rfl
  | cons part parts ih =>
    by_cases hp : part.isEmpty
    · rw [List.filter_cons_of_neg (by simp [hp])] at h
      rw [parseConfigList, if_pos hp]
      exact ih hcs h
    · rw [List.filter_cons_of_pos (by simpa using hp)] at h
      cases h with
      | @cons c _ cs _ hpad hrest =>
        rw [parseConfigList, if_neg hp, parseConstraint_of_pads (hcs c List.mem_cons_self) hpad]
        simp only [ih (fun c' hc' => hcs c' (List.mem_cons_of_mem c hc')) hrest]
        rfl

/-- A configuration of valid constraints, written with blanks and empty parts,
reads back as itself. -/
theorem parseConfig_of_padsConfig {cs : List Constraint} (hcs : ∀ c ∈ cs, c.Valid) {text : List Char}
    (h : PadsConfig cs text) : parseConfig text = .ok cs := by
  obtain ⟨parts, rfl, hparts⟩ := h
  by_cases hnil : parts = []
  · -- the empty text is one empty part
    subst hnil
    rw [List.filter_nil, List.forall₂_nil_right_iff] at hparts
    subst hparts
    rfl
  · have hsemi : ∀ part ∈ parts, ';' ∉ part := by
      intro part hpart hmem
      by_cases hp : part.isEmpty
      · rw [List.isEmpty_iff] at hp
        subst hp
        exact List.not_mem_nil hmem
      · obtain ⟨c, hc, hpad⟩ := Forall₂.exists_of_mem hparts (List.mem_filter.mpr ⟨hpart, by simpa using hp⟩)
        exact hpad.semicolon (hcs c hc) hmem
    rw [parseConfig, List.splitOn_intercalate ';' hsemi hnil]
    exact parseConfigList_of_forall₂ hcs hparts

/-- `render` is the writing with no blanks. -/
theorem pads_render (c : Constraint) : Pads c (render c) := by
  have hargs : List.Forall₂ PadsArg c.args (c.args.map Arg.render) := by
    rw [List.forall₂_map_right_iff, List.forall₂_same]
    intro a _
    cases a with
    | filter f => simpa [Arg.render] using PadsArg.filter (f := f) isBlank_nil isBlank_nil isBlank_nil isBlank_nil
    | label l => simpa [Arg.render] using PadsArg.label (l := l) isBlank_nil isBlank_nil
  simpa [render] using Pads.mk isBlank_nil isBlank_nil isBlank_nil isBlank_nil isBlank_nil isBlank_nil isBlank_nil
    hargs

theorem padsConfig_renderConfig (cs : List Constraint) : PadsConfig cs (renderConfig cs) := by
  refine ⟨cs.map render, rfl, ?_⟩
  have hfilter : ((cs.map render).filter fun part => !part.isEmpty) = cs.map render :=
    List.filter_eq_self.mpr fun part hpart => by
      obtain ⟨c, -, rfl⟩ := List.mem_map.mp hpart
      simp [render]
  rw [hfilter, List.forall₂_map_right_iff, List.forall₂_same]
  exact fun c _ => pads_render c

/-- A configuration of valid constraints is read back from its writing,
and from any writing of it with spaces and tabs around its tokens and empty
parts between its semicolons. -/
theorem parse_config_round_trip (cs : List Constraint) (hcs : ∀ c ∈ cs, c.Valid) :
    parseConfig (renderConfig cs) = .ok cs ∧ ∀ text, PadsConfig cs text → parseConfig text = .ok cs :=
  ⟨parseConfig_of_padsConfig hcs (padsConfig_renderConfig cs), fun _ h => parseConfig_of_padsConfig hcs h⟩

/-- The configuration of the parser's test,
`count()<5;label_values(zone:z1,host,ssd)>-1`. -/
def testConfig : List Constraint :=
  [⟨"count", [], [], "<", 5⟩, ⟨"label_values", [⟨"zone", "z1"⟩], ["host", "ssd"], ">", -1⟩]

theorem testConfig_valid : ∀ c ∈ testConfig, c.Valid := by
  simp only [testConfig, List.forall_mem_cons, List.not_mem_nil, IsEmpty.forall_iff, implies_true, and_true]
  exact ⟨⟨by simp [functionList], by simp, by simp, by simp [ops]⟩,
    ⟨by simp [functionList], by simp [IsArgument, isArgumentChar], by simp [IsArgument, isArgumentChar], by simp [ops]⟩⟩

theorem parse_config_round_trip_testConfig :
    (∀ c ∈ testConfig, c.Valid) ∧ parseConfig (renderConfig testConfig) = .ok testConfig :=
  ⟨testConfig_valid, (parse_config_round_trip testConfig testConfig_valid).1⟩

/-- The padded writing of the test. -/
example : parseConfig " count ( )  <5 ;; \tlabel_values\t ( zone : z1 , \thost , ssd ) > -1 ;;;".toList =
    .ok testConfig := by
  decide

end PlacementDriver.Placement
