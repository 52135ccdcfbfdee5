import BslInsight.Proofs.IndentedText

/-!
# Layouts of blocks

A layout is made of lines and of blocks, which have an opening line, a closing line and a layout
between them, where some lines may divide the block.  A text with these lines gets just the
indents of the layout.
-/

namespace BslInsight

open List

variable {body line : List Char} {lines rest : List (List Char)}

/-! ## Roles of lines -/

def keywordsOf (afterDot : Bool) : List Token → List (Option Keyword)
  | [] => []
  | token :: rest => LineShape.keyword? afterDot token :: keywordsOf (token.kind == .dot) rest

def lineKeywords (body : List Char) : List (Option Keyword) :=
  keywordsOf false ((lexLine false body).1.takeWhile (·.kind != .comment))

def countWhere (p : Keyword → Bool) (keywords : List (Option Keyword)) : Nat :=
  keywords.countP (·.any p)

def startsWith (p : Keyword → Bool) (keywords : List (Option Keyword)) : Bool :=
  keywords.head?.any (·.any p)

inductive LineRole where
  | simple | opener | middle | closer

def LineRole.Fits (keywords : List (Option Keyword)) : LineRole → Prop
  | .simple => countWhere Keyword.opensBlock keywords = 0 ∧
      countWhere Keyword.closesBlock keywords = 0 ∧
      startsWith Keyword.dividesBlock keywords = false
  | .opener => countWhere Keyword.opensBlock keywords = 1 ∧
      countWhere Keyword.closesBlock keywords = 0 ∧
      startsWith Keyword.dividesBlock keywords = false
  | .middle => countWhere Keyword.opensBlock keywords = 0 ∧
      countWhere Keyword.closesBlock keywords = 0 ∧
      startsWith Keyword.dividesBlock keywords = true
  | .closer => countWhere Keyword.opensBlock keywords = 0 ∧
      countWhere Keyword.closesBlock keywords = 1 ∧
      startsWith Keyword.closesBlock keywords = true

instance (keywords : List (Option Keyword)) : DecidablePred (LineRole.Fits keywords)
  | .simple | .opener | .middle | .closer => inferInstanceAs (Decidable (_ ∧ _))

def LineRole.shape : LineRole → LineShape
  | .simple => {}
  | .opener => { opened := 1 }
  | .middle => { outdent := true }
  | .closer => { outdent := true, closed := 1 }

structure RoleLine (role : LineRole) where
  body : List Char
  visible : body.head?.any (fun c => !isBlank c && c != '#') = true := by decide +kernel
  closed : (lexLine false body).2 = false := by decide +kernel
  fits : role.Fits (lineKeywords body) := by decide +kernel

/-- Lines and blocks one after the other, at the top of a text or in a block.  Only a block has
lines that divide it. -/
inductive Layout : Bool → Type
  | done {inBlock : Bool} : Layout inBlock
  | line {inBlock : Bool} (line : RoleLine .simple) (rest : Layout inBlock) : Layout inBlock
  | divide (line : RoleLine .middle) (rest : Layout true) : Layout true
  | block {inBlock : Bool} (opener : RoleLine .opener) (inner : Layout true)
      (closer : RoleLine .closer) (rest : Layout inBlock) : Layout inBlock

namespace Layout

def bodies {inBlock : Bool} : Layout inBlock → List (List Char)
  | .done => []
  | .line line rest => line.body :: rest.bodies
  | .divide line rest => line.body :: rest.bodies
  | .block opener inner closer rest => opener.body :: (inner.bodies ++ closer.body :: rest.bodies)

/-- The depths of the lines of a layout at a depth.  A line that divides a block is at the
depth of the block. -/
def depths {inBlock : Bool} (depth : Nat) : Layout inBlock → List Nat
  | .done => []
  | .line _ rest => depth :: rest.depths depth
  | .divide _ rest => (depth - 1) :: rest.depths depth
  | .block _ inner _ rest => depth :: (inner.depths (depth + 1) ++ depth :: rest.depths depth)

lemma length_depths {inBlock : Bool} (layout : Layout inBlock) (depth : Nat) :
    (layout.depths depth).length = layout.bodies.length := by
  induction layout generalizing depth with
  | done => rfl
  | line _ _ ih | divide _ _ ih => simp [depths, bodies, ih]
  | block _ _ _ _ ihinner ihlater => simp [depths, bodies, ihinner, ihlater]

end Layout

/-! ## Shapes -/

lemma blockKinds_apart (keyword : Keyword) :
    (keyword.opensBlock → keyword.closesBlock = false ∧ keyword.dividesBlock = false) ∧
      (keyword.closesBlock → keyword.dividesBlock = false) := by
  cases keyword <;> decide

lemma LineShape.addTokens_eq {shape : LineShape} {first afterDot : Bool} {tokens : List Token}
    (hcounts : shape.opened = 0 ∧ countWhere Keyword.opensBlock (keywordsOf afterDot tokens) = 0 ∨
      countWhere Keyword.closesBlock (keywordsOf afterDot tokens) = 0) :
    let keywords := keywordsOf afterDot tokens
    shape.addTokens first afterDot tokens =
      { outdent := shape.outdent || first && (startsWith Keyword.closesBlock keywords ||
          startsWith Keyword.dividesBlock keywords)
        opened := shape.opened + countWhere Keyword.opensBlock keywords
        closed := shape.closed + countWhere Keyword.closesBlock keywords } := by
  induction tokens generalizing shape first afterDot with
  | nil => simp [addTokens, keywordsOf, countWhere, startsWith]
  | cons token rest ih =>
    simp only [addTokens, keywordsOf, countWhere, startsWith, countP_cons, head?_cons] at hcounts ih ⊢
    cases hkw : keyword? afterDot token with
    | none =>
      simp only [hkw] at hcounts ⊢
      rw [ih (by simpa using hcounts)]
      simp
    | some keyword =>
      simp only [hkw] at hcounts ⊢
      obtain ⟨hopens, hcls⟩ := blockKinds_apart keyword
      unfold addKeyword
      grind

lemma startsWith_of_countWhere {p : Keyword → Bool} {keywords : List (Option Keyword)}
    (hcount : countWhere p keywords = 0) : startsWith p keywords = false := by
  cases keywords with
  | nil => rfl
  | cons keyword rest => simpa [startsWith] using countP_eq_zero.mp hcount keyword mem_cons_self

variable {role : LineRole} (roleLine : RoleLine role)

lemma RoleLine.shape_eq : LineShape.ofTokens (lexLine false roleLine.body).1 = role.shape := by
  have hfits := roleLine.fits
  have hshape : LineShape.ofTokens (lexLine false roleLine.body).1 =
      { outdent := startsWith Keyword.closesBlock (lineKeywords roleLine.body) ||
          startsWith Keyword.dividesBlock (lineKeywords roleLine.body)
        opened := countWhere Keyword.opensBlock (lineKeywords roleLine.body)
        closed := countWhere Keyword.closesBlock (lineKeywords roleLine.body) } := by
    have hcounts : 0 = 0 ∧ countWhere Keyword.opensBlock (lineKeywords roleLine.body) = 0 ∨
        countWhere Keyword.closesBlock (lineKeywords roleLine.body) = 0 := by
      cases role with
      | opener => exact .inr hfits.2.1
      | simple | middle | closer => exact .inl ⟨rfl, hfits.1⟩
    simpa [LineShape.ofTokens, lineKeywords] using
      @LineShape.addTokens_eq {} true _ _ hcounts
  rw [hshape]
  cases role with
  | simple | opener | middle =>
    simp [hfits.1, hfits.2.1, hfits.2.2, startsWith_of_countWhere hfits.2.1, LineRole.shape]
  | closer => simp [hfits.1, hfits.2.1, hfits.2.2, LineRole.shape]

lemma RoleLine.step_eq (hbreak : '\n' ∉ line) (hbody : trimStart (dropReturn line) = roleLine.body)
    (depth : Nat) : Nesting.step ⟨depth, false⟩ (dropReturn line) =
      (some (role.shape.ownDepth depth), ⟨role.shape.depthAfter depth, false⟩) := by
  have hunbroken := break_not_mem_dropReturn hbreak
  have htrimmed : trimStart roleLine.body = roleLine.body := by
    rw [← hbody]
    exact trimStart_of_head (head_trimStart _)
  have hkept := break_not_mem_trimStart hunbroken
  rw [hbody] at hkept
  rw [Nesting.step_congr hunbroken hkept (hbody.trans htrimmed.symm)]
  have hmoved : (roleLine.body.isEmpty || roleLine.body.head? == some '#') = false := by
    have hvisible := roleLine.visible
    cases htext : roleLine.body with
    | nil => simp [htext] at hvisible
    | cons c rest => simp_all
  simp only [Nesting.step, htrimmed, roleLine.shape_eq, roleLine.closed, Bool.false_or, hmoved]
  rfl

lemma indentedLines_cons (style : IndentStyle) (hbreak : '\n' ∉ line)
    (hbody : trimStart (dropReturn line) = roleLine.body) (number depth : Nat)
    (rest : List (List Char)) :
    indentedLines style none number ⟨depth, false⟩ (line :: rest) =
      (style.indent (role.shape.ownDepth depth) ++ trimStart line) ::
        indentedLines style none (number + 1) ⟨role.shape.depthAfter depth, false⟩ rest := by
  have hstep := roleLine.step_eq hbreak hbody depth
  have hdepth : Nesting.ownDepth? ⟨depth, false⟩ none number (dropReturn line) =
      some (role.shape.ownDepth depth) := congrArg Prod.fst hstep
  rw [indentedLines, hdepth, hstep]
  rfl

lemma indentedLines_layout (style : IndentStyle) {inBlock : Bool} (layout : Layout inBlock)
    (hbreak : ∀ line ∈ lines, '\n' ∉ line)
    (hbds : lines.map (fun line => trimStart (dropReturn line)) = layout.bodies)
    (number depth : Nat) (rest : List (List Char)) :
    indentedLines style none number ⟨depth, false⟩ (lines ++ rest) =
      zipWith (fun depth line => style.indent depth ++ trimStart line) (layout.depths depth) lines ++
        indentedLines style none (number + lines.length) ⟨depth, false⟩ rest := by
  induction layout generalizing lines number depth rest with
  | done =>
    obtain rfl := map_eq_nil_iff.mp hbds
    rfl
  | line roleLine later ih | divide roleLine later ih =>
    obtain ⟨first, others, rfl, hfirst, hoths⟩ := map_eq_cons_iff.mp hbds
    obtain ⟨hunbroken, hlater⟩ := forall_mem_cons.mp hbreak
    rw [cons_append, indentedLines_cons roleLine style hunbroken hfirst,
      LineShape.depthAfter, LineRole.shape, Nat.add_zero, Nat.sub_zero, ih hlater hoths,
      Layout.depths, zipWith_cons_cons, cons_append, length_cons, Nat.add_right_comm, Nat.add_assoc]
    rfl
  | block opener inner closer later ihinner ihlater =>
    obtain ⟨first, others, rfl, hfirst, hoths⟩ := map_eq_cons_iff.mp hbds
    obtain ⟨between, after, rfl, hbetween, hafter⟩ := map_eq_append_iff.mp hoths
    obtain ⟨last, more, rfl, hlast, hmore⟩ := map_eq_cons_iff.mp hafter
    obtain ⟨hopener, hbreak⟩ := forall_mem_cons.mp hbreak
    obtain ⟨hins, hbreak⟩ := forall_mem_append.mp hbreak
    obtain ⟨hcloser, hlater⟩ := forall_mem_cons.mp hbreak
    have hlen : (inner.depths (depth + 1)).length = between.length := by
      rw [inner.length_depths, ← hbetween, length_map]
    have hcount : number + (first :: (between ++ last :: more)).length =
        number + 1 + between.length + 1 + more.length := by
      simp only [length_cons, length_append]
      omega
    have hopn : LineRole.opener.shape.depthAfter depth = depth + 1 := rfl
    have hshut : LineRole.closer.shape.depthAfter (depth + 1) = depth := rfl
    rw [cons_append, append_assoc, cons_append, indentedLines_cons opener style hopener hfirst,
      hopn, ihinner hins hbetween, indentedLines_cons closer style hcloser hlast, hshut,
      ihlater hlater hmore, ← hcount, Layout.depths, zipWith_cons_cons, zipWith_append hlen,
      zipWith_cons_cons, cons_append, append_assoc, cons_append]
    rfl

/-- Applying the edits gives every line of a layout the indent of its depth, whatever blanks it
began with. -/
theorem applyIndentEdits_layout (style : IndentStyle) (layout : Layout false)
    {lines : List (List Char)} (hbreak : ∀ line ∈ lines, '\n' ∉ line)
    (hbodies : lines.map (fun line => trimStart (dropReturn line)) = layout.bodies) :
    let text := joinWith ['\n'] lines
    applyIndentEdits text (indentEdits style none text) =
      joinWith ['\n'] (zipWith (fun depth line => style.indent depth ++ trimStart line)
        (layout.depths 0) lines) := by
  intro text
  by_cases hlines : lines = []
  · subst hlines
    rw [zipWith_nil_right]
    rfl
  · have hsplit : splitOn '\n' text = lines := splitOn_joinWith hbreak hlines
    have hlayout := indentedLines_layout style layout hbreak hbodies 0 0 []
    rw [append_nil, indentedLines, append_nil] at hlayout
    rw [applyIndentEdits, indentEdits, splitLines, applyToLines_editsFrom, hsplit, hlayout]

/-- A block with two parts, in which a member has the name of a keyword. -/
theorem applyIndentEdits_layout_condition :
    let style : IndentStyle := { tabSize := 2, insertSpaces := true }
    let lines := ["  Если А Тогда", "Б = 1;", " Иначе", "\tО.Попытка = 2; // Если", "   КонецЕсли;"].map
      String.toList
    ∃ layout : Layout false, lines.map (fun line => trimStart (dropReturn line)) = layout.bodies ∧
      layout.depths 0 = [0, 1, 0, 1, 0] ∧
      (let text := joinWith ['\n'] lines
       applyIndentEdits text (indentEdits style none text) =
        joinWith ['\n'] (zipWith (fun depth line => style.indent depth ++ trimStart line)
          (layout.depths 0) lines)) := by
  intro style lines
  let layout : Layout false :=
    .block { body := "Если А Тогда".toList }
      (.line { body := "Б = 1;".toList } (.divide { body := "Иначе".toList }
        (.line { body := "О.Попытка = 2; // Если".toList } .done)))
      { body := "КонецЕсли;".toList } .done
  have hbodies : lines.map (fun line => trimStart (dropReturn line)) = layout.bodies := by
    decide +kernel
  exact ⟨layout, hbodies, rfl, applyIndentEdits_layout style layout (by decide +kernel) hbodies⟩

end BslInsight
