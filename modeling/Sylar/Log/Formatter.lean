import Mathlib.Data.List.TakeWhile
import Sylar.Data.Text

namespace Sylar.LogFormatter

open Data

/-! `LogFormatter::init` on the pattern. The position in it is the rest of the
pattern from there, and `isalpha` is that of the "C" locale. -/

inductive FormatItem
  | string (m_string : Text)
  | message
  | level
  | elapse
  | name
  | threadId
  | newLine
  | dateTime (m_format : Text)
  | filename
  | line
  | tab
  | fiberId
  | threadName
  deriving DecidableEq, Repr

/-- An entry of `vec`: a text, or the name and the argument of a directive. -/
inductive Entry
  | text (str : Text)
  | directive (str fmt : Text)
  deriving DecidableEq, Repr

def defaultFormat : Text := "%Y-%m-%d %H:%M:%S".toList

/-- `s_format_items`; only `DateTimeFormatItem` looks at its argument. -/
def formatItem (fmt : Text) : Text → Option FormatItem
  | ['m'] => some .message
  | ['p'] => some .level
  | ['r'] => some .elapse
  | ['c'] => some .name
  | ['t'] => some .threadId
  | ['n'] => some .newLine
  | ['d'] => some (.dateTime (if fmt.isEmpty then defaultFormat else fmt))
  | ['f'] => some .filename
  | ['l'] => some .line
  | ['T'] => some .tab
  | ['F'] => some .fiberId
  | ['N'] => some .threadName
  | _ => none

namespace Entry

def item : Entry → FormatItem
  | .text str => .string str
  | .directive str fmt =>
      (formatItem fmt str).getD
        (.string ("<<error_format %".toList ++ str ++ ">>".toList))

def unknown : Entry → Bool
  | .text _ => false
  | .directive str fmt => (formatItem fmt str).isNone

end Entry

/-- Where the inner loop leaves a directive. -/
inductive Scan
  | directive (str fmt after : Text)
  | unclosed
  deriving DecidableEq, Repr

/-- The inner loop with `fmt_status` 1. -/
def scanFormat (str fmt : Text) : Text → Scan
  | [] => .unclosed
  | c :: rest =>
      if c = '}' then .directive str fmt rest
      else scanFormat str (fmt ++ [c]) rest

/-- The inner loop with `fmt_status` 0. -/
def scan (str : Text) : Text → Scan
  | [] => .directive str [] []
  | c :: rest =>
      if !c.isAlpha ∧ c ≠ '{' ∧ c ≠ '}' then .directive str [] (c :: rest)
      else if c = '{' then scanFormat str [] rest
      else scan (str ++ [c]) rest

theorem scanFormat_length (str : Text) {fmt rest name arg after : Text}
    (scanned : scanFormat str fmt rest = .directive name arg after) :
    after.length ≤ rest.length := by
  induction rest generalizing fmt with
  | nil => cases scanned
  | cons c rest ih =>
      unfold scanFormat at scanned
      split at scanned
      · cases scanned
        exact Nat.le_succ _
      · exact Nat.le_succ_of_le (ih scanned)

theorem scan_length {str rest name arg after : Text}
    (scanned : scan str rest = .directive name arg after) :
    after.length ≤ rest.length := by
  induction rest generalizing str with
  | nil =>
      cases scanned
      exact Nat.le_refl _
  | cons c rest ih =>
      unfold scan at scanned
      split at scanned
      · cases scanned
        exact Nat.le_refl _
      · split at scanned
        · exact Nat.le_succ_of_le (scanFormat_length str scanned)
        · exact Nat.le_succ_of_le (ih scanned)

/-- The text before a directive, if there is any. -/
def flush (nstr : Text) : List Entry :=
  if nstr.isEmpty then [] else [.text nstr]

def patternError : Text := "<<pattern_error>>".toList

/-- The outer loop: `vec`, and whether `m_error` was set. -/
def parse (nstr : Text) : Text → List Entry × Bool
  | [] => (flush nstr, false)
  | c :: rest =>
      if c ≠ '%' then parse (nstr ++ [c]) rest
      else if rest.head? = some '%' then parse (nstr ++ ['%']) rest
      else
        match _scanned : scan [] rest with
        | .directive str fmt after =>
            let (vec, error) := parse [] after
            (flush nstr ++ .directive str fmt :: vec, error)
        | .unclosed =>
            let (vec, _) := parse nstr rest
            (.text patternError :: vec, true)
termination_by rest => rest.length
decreasing_by
  · exact Nat.lt_succ_self _
  · exact Nat.lt_succ_self _
  · exact Nat.lt_succ_of_le (scan_length _scanned)
  · exact Nat.lt_succ_self _

/-- `m_items` and `m_error`. -/
def init (m_pattern : Text) : List FormatItem × Bool :=
  let (vec, error) := parse [] m_pattern
  (vec.map Entry.item, error || vec.any Entry.unknown)

/-! The documented grammar, read left to right. -/

/-- A name of the given characters, the argument in braces if there is one, and
the rest; `none` if the brace is not closed. -/
def directive (inName : Char → Bool) (rest : Text) :
    Option (Text × Text × Text) :=
  match rest.dropWhile inName with
  | '{' :: inner =>
      if '}' ∈ inner then
        some (rest.takeWhile inName, inner.takeWhile (· ≠ '}'),
          (inner.dropWhile (· ≠ '}')).tail)
      else none
  | after => some (rest.takeWhile inName, [], after)

theorem directive_length {inName : Char → Bool} {rest name arg after : Text}
    (found : directive inName rest = some (name, arg, after)) :
    after.length ≤ rest.length := by
  have dropped := (List.dropWhile_sublist inName (l := rest)).length_le
  unfold directive at found
  split at found
  · rename_i inner open_brace
    rw [open_brace, List.length_cons] at dropped
    split at found
    · cases found
      have more :=
        (List.dropWhile_sublist (fun c => decide (c ≠ '}')) (l := inner)).length_le
      rw [List.length_tail]
      omega
    · cases found
  · cases found
    exact dropped

/-- The entries of a pattern; `none` if a brace is not closed. -/
def grammar (text : Text) : Text → Option (List Entry)
  | [] => some (flush text)
  | c :: rest =>
      if c ≠ '%' then grammar (text ++ [c]) rest
      else if rest.head? = some '%' then grammar (text ++ ['%']) rest.tail
      else
        match _found : directive Char.isAlpha rest with
        | some (name, arg, after) =>
            (grammar [] after).map (flush text ++ .directive name arg :: ·)
        | none => none
termination_by rest => rest.length
decreasing_by
  · exact Nat.lt_succ_self _
  · exact Nat.lt_succ_of_le (by simp)
  · exact Nat.lt_succ_of_le (directive_length _found)

/-- No `%%`, and no directive whose name a closing brace follows. -/
def Plain : Text → Prop
  | [] => True
  | c :: rest =>
      if c ≠ '%' then Plain rest
      else if rest.head? = some '%' then False
      else
        match _found : directive Char.isAlpha rest with
        | some (_, _, after) =>
            (rest.dropWhile Char.isAlpha).head? ≠ some '}' ∧ Plain after
        | none => True
termination_by rest => rest.length
decreasing_by
  · exact Nat.lt_succ_self _
  · exact Nat.lt_succ_of_le (directive_length _found)

section Equations

variable {nstr rest name arg after : Text} {c : Char}

theorem parse_char (plain : c ≠ '%') :
    parse nstr (c :: rest) = parse (nstr ++ [c]) rest := by
  rw [parse, if_pos plain]

theorem parse_escape :
    parse nstr ('%' :: '%' :: rest) = parse (nstr ++ ['%']) ('%' :: rest) := by
  rw [parse]
  simp

theorem parse_directive (single : rest.head? ≠ some '%')
    (scanned : scan [] rest = .directive name arg after) :
    parse nstr ('%' :: rest) =
      (flush nstr ++ .directive name arg :: (parse [] after).1,
        (parse [] after).2) := by
  rw [parse, if_neg (not_not.mpr rfl), if_neg single]
  split
  · rename_i scanned'
    rw [scanned] at scanned'
    cases scanned'
    rfl
  · rename_i scanned'
    rw [scanned] at scanned'
    cases scanned'

theorem parse_unclosed (single : rest.head? ≠ some '%')
    (scanned : scan [] rest = .unclosed) :
    parse nstr ('%' :: rest) =
      (.text patternError :: (parse nstr rest).1, true) := by
  rw [parse, if_neg (not_not.mpr rfl), if_neg single]
  split
  · rename_i scanned'
    rw [scanned] at scanned'
    cases scanned'
  · rfl

theorem grammar_char (plain : c ≠ '%') :
    grammar nstr (c :: rest) = grammar (nstr ++ [c]) rest := by
  rw [grammar, if_pos plain]

theorem grammar_escape :
    grammar nstr ('%' :: '%' :: rest) = grammar (nstr ++ ['%']) rest := by
  rw [grammar]
  simp

theorem grammar_directive (single : rest.head? ≠ some '%')
    (found : directive Char.isAlpha rest = some (name, arg, after)) :
    grammar nstr ('%' :: rest) =
      (grammar [] after).map (flush nstr ++ .directive name arg :: ·) := by
  rw [grammar, if_neg (not_not.mpr rfl), if_neg single]
  split
  · rename_i found'
    rw [found] at found'
    cases found'
    rfl
  · rename_i found'
    rw [found] at found'
    cases found'

theorem grammar_unclosed (single : rest.head? ≠ some '%')
    (found : directive Char.isAlpha rest = none) :
    grammar nstr ('%' :: rest) = none := by
  rw [grammar, if_neg (not_not.mpr rfl), if_neg single]
  split
  · rename_i found'
    rw [found] at found'
    cases found'
  · rfl

/-- What the grammar reads at a single sign is a directive and the rest. -/
theorem grammar_some {entries : List Entry} (single : rest.head? ≠ some '%')
    (read : grammar nstr ('%' :: rest) = some entries) :
    ∃ name arg after later,
      directive Char.isAlpha rest = some (name, arg, after) ∧
      grammar [] after = some later ∧
      entries = flush nstr ++ .directive name arg :: later := by
  cases found : directive Char.isAlpha rest with
  | none =>
      rw [grammar_unclosed single found] at read
      cases read
  | some directive =>
      obtain ⟨name, arg, after⟩ := directive
      rw [grammar_directive single found] at read
      obtain ⟨later, behind, rfl⟩ := Option.map_eq_some_iff.mp read
      exact ⟨name, arg, after, later, rfl, behind, rfl⟩

theorem plain_char (plain : c ≠ '%') : Plain (c :: rest) = Plain rest := by
  rw [Plain, if_pos plain]

theorem plain_escape : Plain ('%' :: '%' :: rest) = False := by
  rw [Plain]
  simp

theorem plain_directive (single : rest.head? ≠ some '%')
    (found : directive Char.isAlpha rest = some (name, arg, after)) :
    Plain ('%' :: rest) =
      ((rest.dropWhile Char.isAlpha).head? ≠ some '}' ∧ Plain after) := by
  rw [Plain, if_neg (not_not.mpr rfl), if_neg single]
  split
  · rename_i found'
    rw [found] at found'
    cases found'
    rfl
  · rename_i found'
    rw [found] at found'
    cases found'

end Equations

/-- The inner loop reads a name of letters and closing braces. -/
def inName (c : Char) : Bool := c.isAlpha || c == '}'

theorem scanFormat_eq (str fmt rest : Text) :
    scanFormat str fmt rest =
      if '}' ∈ rest then
        .directive str (fmt ++ rest.takeWhile (· ≠ '}'))
          (rest.dropWhile (· ≠ '}')).tail
      else .unclosed := by
  induction rest generalizing fmt with
  | nil => simp [scanFormat]
  | cons c rest ih =>
      unfold scanFormat
      by_cases close : c = '}'
      · simp [close]
      · simp [close, ih, Ne.symm close]

theorem directive_cons {p : Char → Bool} {c : Char} (named : p c = true)
    (rest : Text) :
    directive p (c :: rest) =
      (directive p rest).map fun found => (c :: found.1, found.2) := by
  unfold directive
  rw [List.dropWhile_cons_of_pos named, List.takeWhile_cons_of_pos named]
  split
  · split <;> rfl
  · rfl

theorem directive_stop {p : Char → Bool} {c : Char} (other : p c = false)
    (plain : c ≠ '{') (rest : Text) :
    directive p (c :: rest) = some ([], [], c :: rest) := by
  have stops : ¬p c = true := by simp [other]
  unfold directive
  rw [List.dropWhile_cons_of_neg stops, List.takeWhile_cons_of_neg stops]
  split
  · rename_i same
    cases same
    exact absurd rfl plain
  · rfl

theorem directive_brace {p : Char → Bool} (other : p '{' = false)
    (rest : Text) :
    directive p ('{' :: rest) =
      if '}' ∈ rest then
        some ([], rest.takeWhile (· ≠ '}'), (rest.dropWhile (· ≠ '}')).tail)
      else none := by
  have stops : ¬p '{' = true := by simp [other]
  unfold directive
  rw [List.dropWhile_cons_of_neg stops, List.takeWhile_cons_of_neg stops]
  rfl

theorem scan_eq (str rest : Text) :
    scan str rest =
      match directive inName rest with
      | some (name, arg, after) => .directive (str ++ name) arg after
      | none => .unclosed := by
  induction rest generalizing str with
  | nil => simp [scan, directive]
  | cons c rest ih =>
      unfold scan
      by_cases brace : c = '{'
      · subst brace
        rw [directive_brace rfl, scanFormat_eq]
        by_cases closed : '}' ∈ rest <;> simp [closed]
      · by_cases named : inName c = true
        · have letter : c.isAlpha = true ∨ c = '}' := by
            simpa [inName] using named
          rw [directive_cons named, if_neg, if_neg brace, ih]
          · cases directive inName rest <;> simp
          · rintro ⟨other, -, differs⟩
            rcases letter with alpha | close
            · simp [alpha] at other
            · exact differs close
        · have other : inName c = false := by simpa using named
          have stops : c.isAlpha = false ∧ c ≠ '}' := by
            simpa [inName] using other
          rw [directive_stop other brace, if_pos ⟨by simp [stops.1], brace, stops.2⟩]
          simp

/-- With nothing but letters in the name both read the same directive. -/
theorem directive_inName {rest : Text}
    (plain : (rest.dropWhile Char.isAlpha).head? ≠ some '}') :
    directive inName rest = directive Char.isAlpha rest := by
  induction rest with
  | nil => rfl
  | cons c rest ih =>
      by_cases alpha : c.isAlpha = true
      · rw [List.dropWhile_cons_of_pos alpha] at plain
        rw [directive_cons alpha, directive_cons (by simp [inName, alpha]),
          ih plain]
      · rw [List.dropWhile_cons_of_neg alpha] at plain
        have close : c ≠ '}' := fun same => plain (by rw [same]; rfl)
        have letter : c.isAlpha = false := by simpa using alpha
        have other : inName c = false := by simp [inName, letter, close]
        by_cases brace : c = '{'
        · subst brace
          rw [directive_brace rfl, directive_brace rfl]
        · rw [directive_stop letter brace, directive_stop other brace]

theorem scan_of_directive {rest name arg after : Text}
    (plain : (rest.dropWhile Char.isAlpha).head? ≠ some '}')
    (found : directive Char.isAlpha rest = some (name, arg, after)) :
    scan [] rest = .directive name arg after := by
  rw [scan_eq, directive_inName plain, found]
  rfl

/-- Induction on a pattern as it is read: a character, an escape, of which either
one or both signs are taken, or a directive with a shorter rest. -/
@[elab_as_elim]
theorem reading {motive : Text → Prop} (nil : motive [])
    (char : ∀ c rest, c ≠ '%' → motive rest → motive (c :: rest))
    (escape : ∀ rest, motive ('%' :: rest) → motive rest →
      motive ('%' :: '%' :: rest))
    (directive : ∀ rest : Text, rest.head? ≠ some '%' →
      (∀ after : Text, after.length ≤ rest.length → motive after) →
      motive ('%' :: rest))
    (pattern : Text) : motive pattern := by
  induction length : pattern.length using Nat.strongRecOn generalizing pattern with
  | ind _ ih =>
      subst length
      cases pattern with
      | nil => exact nil
      | cons c rest =>
          by_cases percent : c = '%'
          · subst percent
            by_cases double : rest.head? = some '%'
            · obtain ⟨more, rfl⟩ : ∃ more, rest = '%' :: more :=
                ⟨_, List.eq_cons_of_mem_head? double⟩
              exact escape more (ih _ (Nat.lt_succ_self _) _ rfl)
                (ih _ (Nat.lt_succ_of_lt (Nat.lt_succ_self _)) _ rfl)
            · exact directive rest double fun after shorter =>
                ih _ (Nat.lt_succ_of_le shorter) _ rfl
          · exact char c rest percent (ih _ (Nat.lt_succ_self _) _ rfl)

/-- On a plain pattern the outer loop reads what the grammar says. -/
theorem parse_of_plain {rest : Text} (plain : Plain rest) {nstr : Text}
    {entries : List Entry} (read : grammar nstr rest = some entries) :
    parse nstr rest = (entries, false) := by
  induction rest using reading generalizing nstr entries with
  | nil =>
      rw [grammar] at read
      cases read
      rw [parse]
  | char c rest percent ih =>
      rw [plain_char percent] at plain
      rw [grammar_char percent] at read
      rw [parse_char percent]
      exact ih plain read
  | escape rest =>
      rw [plain_escape] at plain
      exact plain.elim
  | directive rest single ih =>
      obtain ⟨name, arg, after, later, found, behind, rfl⟩ :=
        grammar_some single read
      rw [plain_directive single found] at plain
      rw [parse_directive single (scan_of_directive plain.1 found),
        ih after (directive_length found) plain.2 behind]

end Sylar.LogFormatter
