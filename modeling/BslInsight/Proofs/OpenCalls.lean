import BslInsight.Proofs.CursorWords
import BslInsight.Proofs.SignatureLabels

/-!
# The call at the cursor

The line before the cursor is read once, with a stack of the open parentheses.  Whatever stands
before the name of a call leaves some stack; its parenthesis comes on top, and at the cursor it is
on top again, with the commas between the arguments counted.  The reader of parameter lists cuts
the arguments at the same commas.
-/

namespace BslInsight

open List hiding beq_eq_decide

variable {c : Char} {inner : List OpenParen}

def outerCommas (depth : Nat) (text : List Char) : Nat := text.inits.countP fun front =>
    front.getLast? == some ',' && depth + front.count '(' == front.count ')'

/-- The text before the cursor: the beginning of the line, the name of the call, the blanks after
it, and what stands behind the parenthesis. -/
structure OpenCall where
  before : List Char := []
  name : List Char
  gap : List Char := []
  arguments : List Char

namespace OpenCall

def text (call : OpenCall) : List Char :=
  call.before ++ (call.name ++ (call.gap ++ '(' :: call.arguments))

structure WellFormed (call : OpenCall) : Prop where
  beforeQuotes : Even (call.before.count '"')
  beforeComments : CommentFree false call.before
  beforeEnd : call.before.getLast?.any isWordChar = false
  nonempty : call.name ≠ []
  name : ∀ c ∈ call.name, isWordChar c = true
  notKeyword : isKeyword (String.ofList call.name) = false
  gap : ∀ c ∈ call.gap, isBlank c = true
  comments : CommentFree false call.arguments
  parens : IsBalanced 0 '(' ')' (unquoted false call.arguments)

end OpenCall

variable {text rest : List Char} {inQuote : Bool} {depth : Nat}

/-! ## Commas -/

lemma outerCommas_cons (next : Nat) (hnext : depth + [c].count '(' = next + [c].count ')') :
    outerCommas depth (c :: rest) = outerCommas next rest + if c = ',' ∧ depth = 0 then 1 else 0 := by
  have hcount (d : Char) (front : List Char) :
      (c :: front).count d = [c].count d + front.count d := by
    rw [← List.count_append, List.singleton_append]
  have hlonger (d : Char) (front : List Char) : ((c :: d :: front).getLast? == some ',' &&
          depth + (c :: d :: front).count '(' == (c :: d :: front).count ')') =
        ((d :: front).getLast? == some ',' &&
          next + (d :: front).count '(' == (d :: front).count ')') := by
    rw [List.getLast?_cons_cons, hcount '(', hcount ')']
    congr 1
    rw [Bool.eq_iff_iff, beq_iff_eq, beq_iff_eq]
    omega
  have hsing : ([c].getLast? == some ',' && depth + [c].count '(' == [c].count ')') =
      decide (c = ',' ∧ depth = 0) := by
    by_cases hc : c = ','
    · subst hc
      simp [beq_eq_decide]
    · simp [hc]
  cases rest with
  | nil =>
    simp only [outerCommas, List.inits, List.countP_cons, List.map_cons, List.map_nil, hsing]
    simp
  | cons d rest =>
    simp only [outerCommas, List.inits, List.countP_cons, List.countP_map, List.map_cons,
      List.map_map, Function.comp_def, hlonger, hsing]
    simp

lemma outerCommas_unquoted_cons
    (hparens : IsBalanced depth '(' ')' (unquoted inQuote (c :: text))) :
    IsBalanced (parensAfter depth inQuote c) '(' ')' (unquoted (quoteAfter inQuote c) text) ∧
      outerCommas depth (unquoted inQuote (c :: text)) =
        outerCommas (parensAfter depth inQuote c) (unquoted (quoteAfter inQuote c) text) +
          if c = ',' ∧ inQuote = false ∧ depth = 0 then 1 else 0 := by
  obtain ⟨hdepth, hrest⟩ := hparens.parensAfter
  refine ⟨hrest, ?_⟩
  rw [unquoted_cons]
  unfold outside at hdepth ⊢
  split at hdepth
  next hquoted =>
    have hsame : parensAfter depth inQuote c = depth := hdepth.symm
    rw [if_pos hquoted, nil_append, hsame]
    rcases hquoted with rfl | rfl <;> simp
  next hshown =>
    rw [not_or, Bool.not_eq_true] at hshown
    rw [if_neg (by simp [hshown]), singleton_append, outerCommas_cons _ hdepth]
    simp [hshown.2]

lemma length_splitTopLevel
    (hparens : IsBalanced depth '(' ')' (unquoted inQuote text)) (hopening : '[' ∉ text)
    (hcl : ']' ∉ text) :
    (splitTopLevel depth inQuote text).length = outerCommas depth (unquoted inQuote text) + 1 := by
  induction text generalizing inQuote depth with
  | nil => rfl
  | cons c text ih =>
    obtain ⟨hrest, hcoms⟩ := outerCommas_unquoted_cons hparens
    rw [mem_cons, not_or, ← ne_eq, ne_comm] at hopening hcl
    have hpcs := ih hrest hopening.2 hcl.2
    have hparens : bracketsAfter depth inQuote c = parensAfter depth inQuote c := by
      simp [bracketsAfter, parensAfter, hopening.1, hcl.1]
    by_cases hcomma : c = ',' ∧ inQuote = false ∧ depth = 0
    · rw [hcoms, if_pos hcomma, ← hpcs]
      obtain ⟨rfl, rfl, rfl⟩ := hcomma
      simp [splitTopLevel, parensAfter, quoteAfter]
    · rw [hcoms, if_neg hcomma, splitTopLevel_cons hcomma, length_modifyHead, hparens, hpcs]

/-! ## The stack of open parentheses -/

def parensStep (inQuote : Bool) (column : Nat) (frames : List OpenParen) (c : Char) :
    List OpenParen :=
  if inQuote then frames else OpenParen.step frames column c

lemma openParens?_cons (hslash : inQuote = false → c = '/' → rest.head? ≠ some '/') (column : Nat)
    (frames : List OpenParen) :
    openParens? inQuote column frames (c :: rest) =
      openParens? (quoteAfter inQuote c) (column + 1) (parensStep inQuote column frames c) rest := by
  rw [openParens?]
  cases inQuote with
  | true => simp [quoteAfter, parensStep, bne, beq_eq_decide]
  | false =>
    rw [if_neg (by simp), if_neg (fun h => hslash rfl h.1 h.2)]
    simp [quoteAfter, parensStep, beq_eq_decide]

lemma exists_openParens?_append
    (hfree : CommentFree inQuote text) (hquotes : Even (text.count '"' + inQuote.toNat))
    (hrest : rest.head? ≠ some '/') (column : Nat) (frames : List OpenParen) :
    ∃ outer, openParens? inQuote column frames (text ++ rest) =
      openParens? false (column + text.length) outer rest := by
  induction text generalizing inQuote column frames with
  | nil =>
    cases inQuote with
    | false => exact ⟨frames, rfl⟩
    | true => simp at hquotes
  | cons c text ih =>
    obtain ⟨outer, houter⟩ := ih hfree.tail ((even_quotes_cons _ _ _).mp hquotes) (column + 1)
      (parensStep inQuote column frames c)
    refine ⟨outer, ?_⟩
    have hslash (hquote : inQuote = false) (hc : c = '/') : (text ++ rest).head? ≠ some '/' :=
      head?_append_ne (hfree.head?_ne hquote hc) hrest
    rw [cons_append, openParens?_cons hslash, houter, length_cons, Nat.add_right_comm,
      Nat.add_assoc]

lemma exists_parensStep (hparens : IsBalanced depth '(' ')' (unquoted inQuote (c :: text)))
    (hinner : inner.length = depth) (frame : OpenParen) (outer : List OpenParen) (column : Nat) :
    ∃ above : List OpenParen, above.length = parensAfter depth inQuote c ∧
      parensStep inQuote column (inner ++ frame :: outer) c = above ++ ⟨frame.column, frame.commas +
          if c = ',' ∧ inQuote = false ∧ depth = 0 then 1 else 0⟩ :: outer := by
  cases inQuote with
  | true => exact ⟨inner, hinner, by simp [parensStep]⟩
  | false =>
    by_cases hopen : c = '('
    · subst hopen
      exact ⟨⟨column, 0⟩ :: inner, by simp [parensAfter, hinner], rfl⟩
    by_cases hclose : c = ')'
    · subst hclose
      have hdepth : depth = depth - 1 + 1 := hparens.parensAfter.1
      obtain ⟨top, inner, rfl⟩ := exists_cons_of_length_eq_add_one (hinner.trans hdepth)
      exact ⟨inner, by simp [parensAfter, ← hinner], rfl⟩
    have hkept : parensAfter depth false c = depth := by simp [parensAfter, hopen, hclose]
    rw [hkept]
    by_cases hcomma : c = ','
    · subst hcomma
      cases inner with
      | nil => exact ⟨[], hinner, by simp [parensStep, OpenParen.step, ← hinner]⟩
      | cons top inner =>
        exact ⟨{ top with commas := top.commas + 1 } :: inner, hinner,
          by simp [parensStep, OpenParen.step, ← hinner]⟩
    · refine ⟨inner, hinner, ?_⟩
      unfold parensStep OpenParen.step
      split <;> simp_all

lemma openParens?_arguments (hfree : CommentFree inQuote text)
    (hparens : IsBalanced depth '(' ')' (unquoted inQuote text)) (hinner : inner.length = depth)
    (frame : OpenParen) (outer : List OpenParen) (column : Nat) :
    openParens? inQuote column (inner ++ frame :: outer) text =
      some (⟨frame.column, frame.commas + outerCommas depth (unquoted inQuote text)⟩ :: outer) := by
  induction text generalizing inQuote depth inner frame column with
  | nil =>
    obtain rfl := hparens.eq_zero
    obtain rfl := length_eq_zero_iff.mp hinner
    rfl
  | cons c text ih =>
    obtain ⟨hrest, hcoms⟩ := outerCommas_unquoted_cons hparens
    obtain ⟨above, habove, hstep⟩ := exists_parensStep hparens hinner frame outer column
    rw [openParens?_cons hfree.head?_ne, hstep, ih hfree.tail hrest habove, hcoms, Nat.add_assoc,
      Nat.add_comm (outerCommas _ _)]

/-! ## The call -/

namespace OpenCall

variable {call : OpenCall}

lemma WellFormed.call? (hcall : call.WellFormed) (commas : Nat) :
    OpenParen.call? call.text ⟨(call.before ++ (call.name ++ call.gap)).length, commas⟩ =
      some ⟨(call.before ++ call.name).length, commas⟩ := by
  have hleft : leftOf call.text (call.before ++ (call.name ++ call.gap)).length =
      (call.before ++ (call.name ++ call.gap)).reverse := by
    have htext : call.text = (call.before ++ (call.name ++ call.gap)) ++ '(' :: call.arguments := by
      simp [text]
    rw [leftOf, htext, take_left]
  have htrim := trimStart_reverse hcall.gap hcall.name hcall.nonempty call.before
  have hword : wordBefore (call.name.reverse ++ call.before.reverse) = call.name :=
    wordBefore_append hcall.name (by simpa using hcall.beforeEnd)
  unfold OpenParen.call?
  simp only [hleft, htrim, hword]
  split
  next hname => exact absurd hname hcall.nonempty
  next => simp [hcall.notKeyword, Nat.add_comm]

lemma WellFormed.not_mem_of_mark (hcall : call.WellFormed) (hc : c ∈ ['"', '/']) :
    c ∉ call.name ++ call.gap := by
  have hmark : isWordChar c = false ∧ isBlank c = false := by
    simp only [mem_cons, not_mem_nil, or_false] at hc
    rcases hc with rfl | rfl <;> decide +kernel
  intro hmem
  rcases mem_append.mp hmem with hname | hgap
  · simp [hcall.name c hname] at hmark
  · simp [hcall.gap c hgap] at hmark

lemma WellFormed.exists_openParens? (hcall : call.WellFormed) :
    ∃ outer, openParens? false 0 [] call.text =
      openParens? false ((call.before ++ (call.name ++ call.gap)).length + 1)
        (⟨(call.before ++ (call.name ++ call.gap)).length, 0⟩ :: outer) call.arguments := by
  have hslash : '/' ∉ call.name ++ call.gap := hcall.not_mem_of_mark (by simp)
  have hquote : '"' ∉ call.name ++ call.gap := hcall.not_mem_of_mark (by simp)
  have hfree : CommentFree false (call.name ++ call.gap) := fun front hfront =>
    absurd (hfront.subset (by simp)) hslash
  have hnext : (call.name ++ call.gap ++ '(' :: call.arguments).head? ≠ some '/' := by
    obtain ⟨c, name, hname⟩ := exists_cons_of_ne_nil hcall.nonempty
    rw [hname] at hslash ⊢
    rintro ⟨⟩
    simp at hslash
  obtain ⟨stack, hbef⟩ := exists_openParens?_append hcall.beforeComments
    (by simpa using hcall.beforeQuotes) hnext 0 []
  have hparen : ('(' :: call.arguments).head? ≠ some '/' := by simp
  obtain ⟨outer, hname⟩ := exists_openParens?_append hfree
    (by simp [count_eq_zero.mpr hquote]) hparen (0 + call.before.length) stack
  refine ⟨outer, ?_⟩
  have htext : call.text = call.before ++ (call.name ++ call.gap ++ '(' :: call.arguments) := by
    simp [text]
  rw [htext, hbef, hname, openParens?_cons (by simp), Nat.zero_add, ← length_append]
  rfl

/-- **The innermost open call is found with the argument at the cursor**, and the arguments before
the cursor are as many as the reader of lists would find. -/
theorem callContext?_text (hcall : call.WellFormed) :
    callContext? call.text = some ⟨(call.before ++ call.name).length,
        outerCommas 0 (unquoted false call.arguments)⟩ ∧
      (Even (call.arguments.count '"') → '[' ∉ call.arguments → ']' ∉ call.arguments →
        (splitTopLevel 0 false call.arguments).length =
          outerCommas 0 (unquoted false call.arguments) + 1) := by
  refine ⟨?_, fun _ hopening hclosing => length_splitTopLevel hcall.parens hopening hclosing⟩
  obtain ⟨outer, hstack⟩ := hcall.exists_openParens?
  have hcommas := openParens?_arguments hcall.comments hcall.parens (@length_nil OpenParen)
    ⟨(call.before ++ (call.name ++ call.gap)).length, 0⟩ outer
    ((call.before ++ (call.name ++ call.gap)).length + 1)
  rw [nil_append, Nat.zero_add] at hcommas
  rw [callContext?, hstack, hcommas, Option.bind_some, findSome?_cons, hcall.call?]

/-- The cursor stands in the third argument of the inner call; a comma and a parenthesis stand in
a string, and a call in the second argument. -/
theorem callContext?_text_nested :
    let call : OpenCall := {
      before := "Б(1, ".toList, name := "Ф".toList, gap := [' ']
      arguments := "\"(,\", Г(А, 1), ".toList }
    call.WellFormed ∧ callContext? call.text = some ⟨6, 2⟩ ∧
      (splitTopLevel 0 false call.arguments).length = 3 := by
  intro call
  have hcall : call.WellFormed := by
    refine ⟨?_, ?_, ?_, ?_, all_eq_true.mp ?_, ?_, all_eq_true.mp ?_, ?_, ?_⟩ <;> decide +kernel
  obtain ⟨hcontext, hsplit⟩ := callContext?_text hcall
  exact ⟨hcall, hcontext, hsplit (by decide) (by decide) (by decide)⟩

end OpenCall

end BslInsight
