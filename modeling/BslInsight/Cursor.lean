import BslInsight.Keyword
import BslInsight.ModuleTable
import BslInsight.Token

/-!
# The text around the cursor

What stands at a column: a word, a chain of names before a dot, and the innermost open call.  Text
to the left of the cursor is held in reverse.
-/

namespace BslInsight

def leftOf (line : List Char) (column : Nat) : List Char :=
  (line.take column).reverse

def wordBefore (left : List Char) : List Char :=
  (left.takeWhile isWordChar).reverse

structure Word where
  text : String
  start : Nat
  stop : Nat
deriving DecidableEq, Repr

def wordAt? (line : List Char) (column : Nat) : Option Word :=
  let before := wordBefore (leftOf line column)
  let after := (line.drop column).takeWhile isWordChar
  let middle := min column line.length
  if before ++ after = [] then none
  else some ⟨String.ofList (before ++ after), middle - before.length, middle + after.length⟩

/-- What stands left of the parenthesis that opens the group in which the cursor stands, `depth`
levels up. -/
def beforeGroup? (depth : Nat) (inQuote : Bool) : List Char → Option (List Char)
  | [] => none
  | c :: left =>
    if c = '"' then beforeGroup? depth (!inQuote) left
    else if inQuote then beforeGroup? depth inQuote left
    else if c = ')' then beforeGroup? (depth + 1) inQuote left
    else if c = '(' then
      if depth ≤ 1 then some left else beforeGroup? (depth - 1) inQuote left
    else beforeGroup? depth inQuote left

theorem length_beforeGroup? {depth : Nat} {inQuote : Bool} {left rest : List Char}
    (h : beforeGroup? depth inQuote left = some rest) : rest.length < left.length := by
  induction left generalizing depth inQuote with
  | nil => simp [beforeGroup?] at h
  | cons c left ih =>
    rw [beforeGroup?] at h
    split at h
    · exact Nat.lt_succ_of_lt (ih h)
    split at h
    · exact Nat.lt_succ_of_lt (ih h)
    split at h
    · exact Nat.lt_succ_of_lt (ih h)
    split at h
    · split at h
      · cases h
        simp
      · exact Nat.lt_succ_of_lt (ih h)
    · exact Nat.lt_succ_of_lt (ih h)

def callBefore? (left : List Char) : Option (Bool × List Char) :=
  match trimStart left with
  | ')' :: rest => (beforeGroup? 1 false rest).map fun left => (true, trimStart left)
  | left => some (false, left)

theorem length_trimStart_le (cs : List Char) : (trimStart cs).length ≤ cs.length :=
  (List.dropWhile_sublist _).length_le

theorem length_callBefore? {left rest : List Char} {isCall : Bool}
    (h : callBefore? left = some (isCall, rest)) : rest.length ≤ left.length := by
  have trimmed := length_trimStart_le left
  rw [callBefore?] at h
  split at h
  · rename_i inner heq
    simp only [Option.map_eq_some_iff, Prod.mk.injEq] at h
    obtain ⟨outer, found, -, rfl⟩ := h
    have group := length_beforeGroup? found
    have blanks := length_trimStart_le outer
    rw [heq] at trimmed
    simp at trimmed
    omega
  · cases h
    exact trimmed

def linkBefore? (left : List Char) : Option (ChainLink × List Char) :=
  match callBefore? left with
  | none => none
  | some (isCall, left) =>
    match wordBefore left with
    | [] => none
    | c :: name =>
      if isDecimalDigit c then none
      else some (⟨String.ofList (c :: name), isCall⟩, left.dropWhile isWordChar)

theorem length_linkBefore? {left rest : List Char} {link : ChainLink}
    (h : linkBefore? left = some (link, rest)) : rest.length < left.length := by
  rw [linkBefore?] at h
  split at h
  · simp at h
  rename_i isCall inner call
  split at h
  · simp at h
  rename_i c name word
  split at h
  · simp at h
  cases h
  have shorter := length_callBefore? call
  have parts : (inner.takeWhile isWordChar).length + (inner.dropWhile isWordChar).length =
      inner.length := by
    rw [← List.length_append, List.takeWhile_append_dropWhile]
  have length := congrArg List.length word
  simp only [wordBefore, List.length_reverse, List.length_cons] at length
  omega

/-- The chain that ends at the cursor, followed by the links that were read already. -/
def chainBefore? (done : List ChainLink) (left : List Char) : Option (List ChainLink) :=
  match _h : linkBefore? left with
  | none => none
  | some (link, rest) =>
    match _hrest : trimStart rest with
    | '.' :: more => chainBefore? (link :: done) more
    | _ => some (link :: done)
termination_by left.length
decreasing_by
  have shorter := length_linkBefore? _h
  have blanks := length_trimStart_le rest
  rw [_hrest] at blanks
  simp at blanks
  omega

def receiverChain? (chars : List Char) (dot : Nat) : Option (List ChainLink) :=
  if chars[dot]? = some '.' then chainBefore? [] (leftOf chars dot) else none

def endsWithNew (left : List Char) : Bool :=
  Keyword.ofWord? (String.ofList (wordBefore (trimStart left))) == some .new

def followsNew (line : List Char) (start : Nat) : Bool :=
  endsWithNew (leftOf line start)

def memberDot? (line : List Char) (start : Nat) : Option Nat :=
  match trimStart (leftOf line start) with
  | '.' :: left => some left.length
  | _ => none

inductive Trigger where
  | name
  | newExpression
  | member (receiver : Option (List ChainLink))
deriving DecidableEq, Repr

structure Typing where
  typed : String
  trigger : Trigger
deriving DecidableEq, Repr

def Typing.atEnd (text : List Char) : Typing :=
  let left := text.reverse
  let before := left.dropWhile isWordChar
  let trigger :=
    match trimStart before with
    | '.' :: receiver => .member (chainBefore? [] receiver)
    | _ => if endsWithNew before then .newExpression else .name
  ⟨String.ofList (wordBefore left), trigger⟩

structure OpenParen where
  column : Nat
  commas : Nat
deriving DecidableEq, Repr

/-- The open parentheses after one more character outside of quotes, innermost first. -/
def OpenParen.step (open? : List OpenParen) (column : Nat) (c : Char) : List OpenParen :=
  match c, open? with
  | '(', frames => ⟨column, 0⟩ :: frames
  | ')', frames => frames.tail
  | ',', frame :: frames => { frame with commas := frame.commas + 1 } :: frames
  | _, frames => frames

/-- The parentheses that are open at the end of a text, innermost first; none in a comment. -/
def openParens? (inQuote : Bool) (column : Nat) (frames : List OpenParen) :
    List Char → Option (List OpenParen)
  | [] => some frames
  | c :: rest =>
    if inQuote then openParens? (c != '"') (column + 1) frames rest
    else if c = '/' ∧ rest.head? = some '/' then none
    else openParens? (c == '"') (column + 1) (OpenParen.step frames column c) rest

structure CallContext where
  calleeEnd : Nat
  activeParameter : Nat
deriving DecidableEq, Repr

def OpenParen.call? (text : List Char) (frame : OpenParen) : Option CallContext :=
  let left := trimStart (leftOf text frame.column)
  match wordBefore left with
  | [] => none
  | name =>
    if isKeyword (String.ofList name) then none else some ⟨left.length, frame.commas⟩

def callContext? (text : List Char) : Option CallContext :=
  (openParens? false 0 [] text).bind fun frames => frames.findSome? (OpenParen.call? text)

end BslInsight
