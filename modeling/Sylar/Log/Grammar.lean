import Sylar.Log.Formatter

namespace Sylar.LogFormatter

open Data

/-! `init` beside the grammar: where a brace is not closed, and where it parts from
the grammar. -/

/-- The items are those of the grammar, and `isError` says that a name is unknown
or a brace is not closed. -/
def Follows (pattern : Text) : Prop :=
  match grammar [] pattern with
  | some entries =>
      (init pattern).1 = entries.map Entry.item ∧
        (init pattern).2 = entries.any Entry.unknown
  | none => (init pattern).2 = true

/-- A directive with a brace that is not closed. -/
def Unclosed (text : Text) : Prop :=
  ∃ name inner, text = '%' :: (name ++ '{' :: inner) ∧
    (∀ c ∈ name, c.isAlpha = true) ∧ '}' ∉ inner

theorem directive_none {p : Char → Bool} {rest : Text}
    (found : directive p rest = none) :
    ∃ name inner, rest = name ++ '{' :: inner ∧ (∀ c ∈ name, p c = true) ∧
      '}' ∉ inner := by
  unfold directive at found
  split at found
  · rename_i inner opened
    split at found
    · cases found
    · rename_i unclosed
      refine ⟨rest.takeWhile p, inner, ?_, ?_, unclosed⟩
      · rw [← opened, List.takeWhile_append_dropWhile]
      · exact fun c member => List.mem_takeWhile_imp member
  · cases found

theorem directive_unclosed {p : Char → Bool} (other : p '{' = false)
    {name inner : Text} (named : ∀ c ∈ name, p c = true)
    (unclosed : '}' ∉ inner) : directive p (name ++ '{' :: inner) = none := by
  induction name with
  | nil =>
      rw [List.nil_append, directive_brace other, if_neg unclosed]
  | cons c name ih =>
      obtain ⟨first, later⟩ := List.forall_mem_cons.mp named
      rw [List.cons_append, directive_cons first, ih later]
      rfl

theorem close_split {inner : Text} (closed : '}' ∈ inner) :
    inner = inner.takeWhile (· ≠ '}') ++
      '}' :: (inner.dropWhile (· ≠ '}')).tail := by
  induction inner with
  | nil => cases closed
  | cons c inner ih =>
      by_cases close : c = '}'
      · simp [close]
      · rcases List.mem_cons.mp closed with same | later
        · exact absurd same.symm close
        · simp only [ne_eq, close, not_false_eq_true, decide_true,
            List.takeWhile_cons_of_pos, List.dropWhile_cons_of_pos,
            List.cons_append, List.cons.injEq, true_and]
          exact ih later

/-- What a directive takes of the pattern: a name, and an argument with its
closing brace. -/
theorem directive_span {p : Char → Bool} {rest name arg after : Text}
    (found : directive p rest = some (name, arg, after)) :
    (∀ c ∈ name, p c = true) ∧
      (rest = name ++ after ∨
        ∃ body, rest = (name ++ '{' :: (body ++ ['}'])) ++ after) := by
  unfold directive at found
  split at found
  · rename_i inner opened
    split at found
    · rename_i closed
      cases found
      refine ⟨fun c member => List.mem_takeWhile_imp member, .inr
        ⟨inner.takeWhile (· ≠ '}'), ?_⟩⟩
      have whole := (@List.takeWhile_append_dropWhile _ p rest).symm
      rw [opened] at whole
      rw [List.append_assoc, List.cons_append, List.append_assoc,
        List.singleton_append, ← close_split closed]
      exact whole
    · cases found
  · cases found
    exact ⟨fun c member => List.mem_takeWhile_imp member,
      .inl List.takeWhile_append_dropWhile.symm⟩

theorem unclosed_of_grammar {rest nstr : Text}
    (unread : grammar nstr rest = none) :
    ∃ unclosed, Unclosed unclosed ∧ unclosed <:+ rest := by
  induction rest using reading generalizing nstr with
  | nil =>
      rw [grammar] at unread
      cases unread
  | char c rest percent ih =>
      rw [grammar_char percent] at unread
      obtain ⟨unclosed, is, suffix⟩ := ih unread
      exact ⟨unclosed, is, suffix.trans (List.suffix_cons _ _)⟩
  | escape rest _ ih =>
      rw [grammar_escape] at unread
      obtain ⟨unclosed, is, suffix⟩ := ih unread
      exact ⟨unclosed, is, suffix.trans
        ((List.suffix_cons _ _).trans (List.suffix_cons _ _))⟩
  | directive rest single ih =>
      cases found : directive Char.isAlpha rest with
      | none =>
          obtain ⟨name, inner, rfl, named, open_brace⟩ := directive_none found
          exact ⟨_, ⟨name, inner, rfl, named, open_brace⟩, List.suffix_refl _⟩
      | some directive =>
          obtain ⟨name, arg, after⟩ := directive
          rw [grammar_directive single found, Option.map_eq_none_iff] at unread
          obtain ⟨unclosed, is, suffix⟩ := ih after (directive_length found) unread
          refine ⟨unclosed, is, suffix.trans ?_⟩
          rcases (directive_span found).2 with rfl | ⟨body, rfl⟩
          · exact (List.suffix_append _ _).trans (List.suffix_cons _ _)
          · exact (List.suffix_append _ _).trans (List.suffix_cons _ _)

/-- No directive reaches into one whose brace is not closed. -/
theorem Unclosed.behind {unclosed rest name arg after : Text}
    (is : Unclosed unclosed) (suffix : unclosed <:+ rest)
    (found : directive inName rest = some (name, arg, after)) :
    unclosed <:+ after := by
  obtain ⟨letters, inner, rfl, named, open_brace⟩ := is
  have no_close : '}' ∉ '%' :: (letters ++ '{' :: inner) := by
    intro member
    simp only [List.mem_cons, List.mem_append] at member
    rcases member with percent | letter | brace | close
    · exact absurd percent (by decide)
    · exact absurd (named _ letter) (by decide)
    · exact absurd brace (by decide)
    · exact open_brace close
  obtain ⟨all, shape⟩ := directive_span found
  obtain ⟨before, rfl⟩ := suffix
  rcases shape with split | ⟨body, split⟩
  · rcases List.append_eq_append_iff.mp split with
      ⟨taken, span, shared⟩ | ⟨more, -, rest⟩
    · cases taken with
      | nil => rw [shared]; exact List.suffix_refl _
      | cons c taken =>
          obtain ⟨rfl, -⟩ := List.cons.inj shared
          exact absurd (all '%' (by simp [span])) (by decide)
    · rw [rest]
      exact List.suffix_append _ _
  · rcases List.append_eq_append_iff.mp split with
      ⟨taken, span, shared⟩ | ⟨more, -, rest⟩
    · rcases List.eq_nil_or_concat taken with rfl | ⟨front, last, rfl⟩
      · rw [shared]; exact List.suffix_refl _
      · have ends : last = '}' := by
          have same : (name ++ '{' :: body) ++ ['}'] =
              (before ++ front) ++ [last] := by simpa using span
          exact (List.singleton_inj.mp (List.append_inj' same rfl).2).symm
        exact absurd (by rw [shared]; simp [ends]) no_close
    · rw [rest]
      exact List.suffix_append _ _

theorem parse_error {unclosed rest nstr : Text} (is : Unclosed unclosed)
    (suffix : unclosed <:+ rest) : (parse nstr rest).2 = true := by
  induction rest using reading generalizing nstr with
  | nil =>
      obtain ⟨name, inner, rfl, -⟩ := is
      exact absurd (List.suffix_nil.mp suffix) (by simp)
  | char c rest percent ih =>
      rw [parse_char percent]
      rcases List.suffix_cons_iff.mp suffix with rfl | later
      · obtain ⟨name, inner, same, -⟩ := is
        exact absurd (List.cons.inj same).1 percent
      · exact ih later
  | escape rest ih _ =>
      rw [parse_escape]
      rcases List.suffix_cons_iff.mp suffix with rfl | later
      · obtain ⟨name, inner, same, named, -⟩ := is
        have next := (List.cons.inj same).2
        cases name with
        | nil => exact absurd (List.cons.inj next).1 (by decide)
        | cons c name =>
            obtain ⟨rfl, -⟩ := List.cons.inj next
            exact absurd (named '%' (List.mem_cons_self)) (by decide)
      · exact ih later
  | directive rest single ih =>
      cases found : directive inName rest with
      | none => rw [parse_unclosed single (by rw [scan_eq, found])]
      | some directive =>
          obtain ⟨name, arg, after⟩ := directive
          rw [parse_directive single (by rw [scan_eq, found])]
          rcases List.suffix_cons_iff.mp suffix with rfl | later
          · obtain ⟨name, inner, same, named, open_brace⟩ := is
            obtain rfl := (List.cons.inj same).2
            rw [directive_unclosed rfl
              (fun c member => by simp [inName, named c member]) open_brace] at found
            cases found
          · exact ih after (directive_length found) (is.behind later found)

/-! Where the pattern is not plain, the first item that is read in another way
differs. -/

theorem flush_of_ne {nstr : Text} (some_text : nstr ≠ []) :
    flush nstr = [.text nstr] :=
  if_neg (by simpa using some_text)

/-- The text in front of what follows is the beginning of the next item. -/
theorem grammar_head {rest nstr : Text} (some_text : nstr ≠ [])
    {entries : List Entry} (read : grammar nstr rest = some entries) :
    ∃ more tail, entries = .text (nstr ++ more) :: tail := by
  induction rest using reading generalizing nstr entries with
  | nil =>
      rw [grammar, flush_of_ne some_text] at read
      cases read
      exact ⟨[], [], by rw [List.append_nil]⟩
  | char c rest percent ih =>
      rw [grammar_char percent] at read
      obtain ⟨more, tail, rfl⟩ := ih (by simp) read
      exact ⟨c :: more, tail, by rw [List.append_assoc]; rfl⟩
  | escape rest _ ih =>
      rw [grammar_escape] at read
      obtain ⟨more, tail, rfl⟩ := ih (by simp) read
      exact ⟨'%' :: more, tail, by rw [List.append_assoc]; rfl⟩
  | directive rest single ih =>
      obtain ⟨name, arg, after, later, -, -, rfl⟩ := grammar_some single read
      exact ⟨[], _, by rw [List.append_nil, flush_of_ne some_text]; rfl⟩

/-- Of the outer loop too, unless a brace is not closed. -/
theorem parse_head {rest nstr : Text} (some_text : nstr ≠ []) :
    ∃ first tail, (parse nstr rest).1 = .text first :: tail ∧
      (first = patternError ∨ nstr <+: first) := by
  induction rest using reading generalizing nstr with
  | nil =>
      rw [parse, flush_of_ne some_text]
      exact ⟨nstr, [], rfl, .inr (List.prefix_refl _)⟩
  | char c rest percent ih =>
      obtain ⟨first, tail, head, shape⟩ := @ih (nstr ++ [c]) (by simp)
      rw [parse_char percent]
      exact ⟨first, tail, head,
        shape.imp_right (List.prefix_append _ _).trans⟩
  | escape rest ih _ =>
      obtain ⟨first, tail, head, shape⟩ := @ih (nstr ++ ['%']) (by simp)
      rw [parse_escape]
      exact ⟨first, tail, head,
        shape.imp_right (List.prefix_append _ _).trans⟩
  | directive rest single ih =>
      cases found : scan [] rest with
      | directive name arg after =>
          rw [parse_directive single found, flush_of_ne some_text]
          exact ⟨nstr, _, rfl, .inr (List.prefix_refl _)⟩
      | unclosed =>
          rw [parse_unclosed single found]
          exact ⟨patternError, _, rfl, .inl rfl⟩

theorem patternError_ne {text : Text} (sign : '%' ∈ text) (more : Text) :
    patternError ≠ text ++ more := by
  intro same
  have absent : '%' ∉ patternError := by decide
  rw [same] at absent
  exact absent (List.mem_append_left _ sign)

theorem text_inj {one other : Text} {left right : List Entry}
    (same : (Entry.text one :: left).map Entry.item =
      (Entry.text other :: right).map Entry.item) : one = other := by
  injection same with first
  injection first

/-- The loop that has a sign too many before it never gives the items of the
grammar. -/
theorem parse_behind {rest nstr text : Text} {extra : Nat}
    (more : nstr = text ++ List.replicate extra '%') (sign : '%' ∈ text)
    {entries : List Entry} (read : grammar text rest = some entries) :
    (parse nstr ('%' :: rest)).1.map Entry.item ≠ entries.map Entry.item := by
  have some_text : text ≠ [] := List.ne_nil_of_mem sign
  have some_nstr : nstr ≠ [] := by simp [more, some_text]
  induction rest using reading generalizing nstr text extra entries with
  | nil =>
      rw [grammar, flush_of_ne some_text] at read
      cases read
      rw [@parse_directive _ [] [] [] [] (by decide) rfl, flush_of_ne some_nstr]
      intro same
      have lengths := congrArg List.length same
      simp at lengths
  | char c rest percent _ =>
      rw [grammar_char percent] at read
      obtain ⟨later, tail, rfl⟩ := grammar_head (by simp) read
      have single : (c :: rest).head? ≠ some '%' := by simpa using percent
      cases found : scan [] (c :: rest) with
      | directive name arg after =>
          rw [parse_directive single found, flush_of_ne some_nstr]
          intro same
          have longer := text_inj same
          rw [more, List.append_assoc] at longer
          have signs := List.append_cancel_left longer
          have first : c ∈ List.replicate extra '%' := by rw [signs]; simp
          exact percent (List.eq_of_mem_replicate first)
      | unclosed =>
          rw [parse_unclosed single found]
          intro same
          exact patternError_ne (List.mem_append_left _ sign) _ (text_inj same)
  | escape rest _ ih =>
      rw [grammar_escape] at read
      rw [parse_escape, parse_escape]
      refine @ih _ (text ++ ['%']) (extra + 1) ?_ (by simp) _ read (by simp) (by simp)
      have signs : List.replicate extra '%' ++ ['%'] =
          '%' :: List.replicate extra '%' := by
        rw [← List.replicate_succ', List.replicate_succ]
      rw [more, List.append_assoc text, signs, List.append_assoc,
        List.append_assoc, List.cons_append, signs]
      rfl
  | directive rest single _ =>
      rw [parse_escape]
      obtain ⟨name, arg, after, later, -, -, rfl⟩ := grammar_some single read
      rw [flush_of_ne some_text]
      cases found : scan [] rest with
      | directive name arg after =>
          rw [parse_directive single found, flush_of_ne (by simp)]
          intro same
          have lengths := congrArg List.length (text_inj same)
          simp [more] at lengths
      | unclosed =>
          rw [parse_unclosed single found]
          intro same
          have shape := text_inj same
          exact patternError_ne sign [] (by rw [shape, List.append_nil])

theorem formatItem_single {fmt str : Text} {found : FormatItem}
    (known : formatItem fmt str = some found) :
    '}' ∉ str ∧ ∀ text, found ≠ .string text := by
  unfold formatItem at known
  split at known <;> cases known <;> simp

/-- Names that differ in a closing brace give different items. -/
theorem item_ne {str name : Text} (braced : '}' ∈ str) (plain : '}' ∉ name)
    (fmt arg : Text) :
    (Entry.directive str fmt).item ≠ (Entry.directive name arg).item := by
  have unknown : formatItem fmt str = none := by
    cases known : formatItem fmt str with
    | none => rfl
    | some found => exact absurd braced (formatItem_single known).1
  rw [Entry.item, Entry.item, unknown]
  cases known : formatItem arg name with
  | some found => exact fun same => (formatItem_single known).2 _ same.symm
  | none =>
      intro same
      injection same with texts
      have names := List.append_cancel_left (List.append_cancel_right texts)
      exact plain (names ▸ braced)

theorem item_ne_patternError (name arg more : Text) :
    (Entry.text (patternError ++ more)).item ≠
      (Entry.directive name arg).item := by
  rw [Entry.item, Entry.item]
  cases known : formatItem arg name with
  | some found => exact fun same => (formatItem_single known).2 _ same.symm
  | none =>
      intro same
      injection same with texts
      have third : some 'p' = some 'e' := congrArg (fun text => text[2]?) texts
      exact absurd third (by decide)

theorem directive_name {p : Char → Bool} {rest name arg after : Text}
    (found : directive p rest = some (name, arg, after)) :
    name = rest.takeWhile p := by
  unfold directive at found
  split at found
  · split at found
    · cases found
      rfl
    · cases found
  · cases found
    rfl

theorem braced_name {rest : Text}
    (brace : (rest.dropWhile Char.isAlpha).head? = some '}') :
    '}' ∈ rest.takeWhile inName := by
  induction rest with
  | nil => cases brace
  | cons c rest ih =>
      by_cases alpha : c.isAlpha = true
      · rw [List.dropWhile_cons_of_pos alpha] at brace
        rw [List.takeWhile_cons_of_pos (by simp [inName, alpha])]
        exact List.mem_cons_of_mem _ (ih brace)
      · rw [List.dropWhile_cons_of_neg alpha] at brace
        obtain rfl := Option.some.inj brace
        rw [List.takeWhile_cons_of_pos rfl]
        exact List.mem_cons_self

/-- A directive whose name takes a closing brace in gives another item. -/
theorem parse_braced {rest nstr name arg after : Text}
    (single : rest.head? ≠ some '%')
    (read : directive Char.isAlpha rest = some (name, arg, after))
    (brace : (rest.dropWhile Char.isAlpha).head? = some '}')
    (later : List Entry) :
    (parse nstr ('%' :: rest)).1.map Entry.item ≠
      (flush nstr ++ .directive name arg :: later).map Entry.item := by
  have plain : '}' ∉ name := by
    intro member
    have letter := (directive_span read).1 _ member
    exact absurd letter (by decide)
  cases found : directive inName rest with
  | some directive =>
      obtain ⟨str, fmt, after⟩ := directive
      rw [parse_directive single (by rw [scan_eq, found]), List.map_append,
        List.map_append]
      intro same
      have first := (List.cons.inj (List.append_cancel_left same)).1
      have braced := braced_name brace
      rw [← directive_name found] at braced
      exact item_ne braced plain fmt arg first
  | none =>
      rw [parse_unclosed single (by rw [scan_eq, found])]
      by_cases empty : nstr = []
      · subst empty
        intro same
        refine item_ne_patternError name arg [] ?_
        rw [List.append_nil]
        exact (List.cons.inj same).1
      · obtain ⟨first, tail, head, shape⟩ := @parse_head rest nstr empty
        rw [flush_of_ne empty, head]
        intro same
        have error : patternError = nstr := text_inj same
        have second := (List.cons.inj (List.cons.inj same).2).1
        obtain ⟨more, rfl⟩ : ∃ more, first = patternError ++ more := by
          rcases shape with rfl | ⟨more, rfl⟩
          · exact ⟨[], (List.append_nil _).symm⟩
          · exact ⟨more, by rw [error]⟩
        exact item_ne_patternError name arg more second

theorem plain_of_items {rest nstr : Text} {entries : List Entry}
    (read : grammar nstr rest = some entries)
    (same : (parse nstr rest).1.map Entry.item = entries.map Entry.item) :
    Plain rest := by
  induction rest using reading generalizing nstr entries with
  | nil =>
      rw [Plain]
      trivial
  | char c rest percent ih =>
      rw [grammar_char percent] at read
      rw [parse_char percent] at same
      rw [plain_char percent]
      exact ih read same
  | escape rest =>
      rw [grammar_escape] at read
      rw [parse_escape] at same
      exact absurd same (@parse_behind _ _ _ 0 (List.append_nil _).symm
        (by simp) _ read)
  | directive rest single ih =>
      obtain ⟨name, arg, after, later, found, behind, rfl⟩ :=
        grammar_some single read
      by_cases brace : (rest.dropWhile Char.isAlpha).head? = some '}'
      · exact absurd same (parse_braced single found brace later)
      · rw [plain_directive single found]
        refine ⟨brace, ih after (directive_length found) behind ?_⟩
        rw [parse_directive single (scan_of_directive brace found),
          List.map_append, List.map_append] at same
        exact (List.cons.inj (List.append_cancel_left same)).2

/-- `init` follows the grammar on the patterns with a brace that is not closed,
and on the plain ones. -/
theorem follows_iff (pattern : Text) :
    Follows pattern ↔ grammar [] pattern = none ∨ Plain pattern := by
  cases read : grammar [] pattern with
  | none =>
      obtain ⟨unclosed, is, suffix⟩ := unclosed_of_grammar read
      have error := @parse_error unclosed pattern [] is suffix
      unfold Follows
      rw [read]
      simp [init, error]
  | some entries =>
      have meaning : Follows pattern ↔
          (init pattern).1 = entries.map Entry.item ∧
            (init pattern).2 = entries.any Entry.unknown := by
        unfold Follows
        rw [read]
      rw [meaning]
      constructor
      · rintro ⟨items, -⟩
        exact .inr (plain_of_items read items)
      · rintro (none | plain)
        · cases none
        · rw [init, parse_of_plain plain read]
          exact ⟨rfl, rfl⟩

/-- The second sign of an escape starts a directive, and a closing brace behind a
name is read as part of it. -/
theorem follows_not :
    init "100%%".toList =
        ([.string "100%".toList, .string "<<error_format %>>".toList], true) ∧
      grammar [] "100%%".toList = some [.text "100%".toList] ∧
      ¬ Follows "100%%".toList ∧
      init "\x7b%m\x7d".toList =
        ([.string ['{'], .string "<<error_format %m\x7d>>".toList], true) ∧
      ¬ Follows "\x7b%m\x7d".toList := by
  have percent : init "100%%".toList =
      ([.string "100%".toList, .string "<<error_format %>>".toList], true) := by
    decide +kernel
  have braced : init "\x7b%m\x7d".toList =
      ([.string ['{'], .string "<<error_format %m\x7d>>".toList], true) := by
    decide +kernel
  have read : grammar [] "100%%".toList = some [.text "100%".toList] := by
    decide +kernel
  have read_braced : grammar [] "\x7b%m\x7d".toList =
      some [.text ['{'], .directive ['m'] [], .text ['}']] := by
    decide +kernel
  refine ⟨percent, read, ?_, braced, ?_⟩
  · unfold Follows
    rw [read, percent]
    decide
  · unfold Follows
    rw [read_braced, braced]
    decide

end Sylar.LogFormatter
