import BslInsight.Proofs.IndentedParams

/-!
# Comments in a parameter list

A parameter list is scanned line by line, and the scan knows whether a line begins inside of a
string.  Comments are cut off later, from each line as if it began outside.  The two agree about a
line that begins inside of a string only if there are no two slashes in it.
-/

namespace BslInsight

open List

variable {length depth : Nat} {lines : List ListLine} {c : Char} {inQuote : Bool} {rest : List Char}

/-- A line of a parameter list, up to the parenthesis if the list is closed there, and how
the scan comes to it. -/
structure ListLine where
  depth : Nat
  inQuote : Bool
  text : List Char

def paramLines (depth : Nat) (inQuote : Bool) (line : List Char) (following : List (List Char)) :
    List ListLine :=
  match scanParamList depth inQuote line, following with
  | .closed length, _ => [⟨depth, inQuote, line.take (length - 1)⟩]
  | .«open» _ _, [] => [⟨depth, inQuote, line⟩]
  | .«open» inner quoted, next :: rest =>
    ⟨depth, inQuote, line⟩ ::
      if isMethodBoundary next then [] else paramLines inner quoted next rest

namespace ListLine

structure MeetsComment (line : ListLine) (column : Nat) : Prop where
  slashes : ['/', '/'] <+: line.text.drop column
  outside :
    ∃ inner, scanParamList line.depth line.inQuote (line.text.take column) = .«open» inner false

structure StopsAtComment (line : ListLine) (column : Nat) : Prop where
  meets : line.MeetsComment column
  first : ∀ earlier < column, ¬line.MeetsComment earlier

def Cleared (line : ListLine) (code : List Char) : Prop :=
  (∃ column, line.StopsAtComment column ∧ code = line.text.take column) ∨
    (∀ column, ¬line.MeetsComment column) ∧ code = line.text

end ListLine

def keptLines (lines : List ListLine) : List (List Char) :=
  lines.dropLast.map (fun line => cleanLine line.text) ++
    (lines.getLast?.map fun line => beforeComment line.text).toList

def listParams (codes : List (List Char)) : List Parameter :=
  (splitTopLevel 0 false (joinWith ['\n'] codes)).filterMap Parameter.ofPiece?

/-- No line that begins inside of a string has two slashes in it, and a carriage return
before a line break belongs to a comment. -/
structure CommentsAgree (lines : List ListLine) : Prop where
  slashes : ∀ line ∈ lines, line.inQuote = true → ¬['/', '/'] <:+: line.text
  returns :
    ∀ line ∈ lines.dropLast, line.text.getLast? = some '\r' → ∃ column, line.StopsAtComment column

/-! ## The comment of a line -/

def beforeCommentIn (inQuote : Bool) : List Char → List Char
  | [] => []
  | c :: rest =>
    if inQuote = false ∧ c = '/' ∧ rest.head? = some '/' then []
    else c :: beforeCommentIn (quoteAfter inQuote c) rest

lemma elim_commentStart? (inQuote : Bool) (line : List Char) :
    (commentStart? inQuote line).elim line line.take = beforeCommentIn inQuote line := by
  induction line generalizing inQuote with
  | nil => rfl
  | cons c rest ih =>
    rw [commentStart?, beforeCommentIn]
    by_cases hcom : inQuote = false ∧ c = '/' ∧ rest.head? = some '/'
    · rw [if_pos hcom, if_pos hcom]
      rfl
    · rw [if_neg hcom, if_neg hcom, ← ih (quoteAfter inQuote c), quoteAfter]
      cases commentStart? (if c = '"' then !inQuote else inQuote) rest <;> rfl

lemma beforeComment_eq (line : List Char) : beforeComment line = beforeCommentIn false line := by
  rw [← elim_commentStart?, beforeComment]
  cases commentStart? false line <;> rfl

lemma beforeCommentIn_prefix (inQuote : Bool) (line : List Char) :
    beforeCommentIn inQuote line <+: line := by
  fun_induction beforeCommentIn inQuote line with
  | case1 => exact prefix_rfl
  | case2 => exact nil_prefix
  | case3 inQuote c rest _ ih => exact (prefix_cons_inj c).mpr ih

lemma slashes_prefix_iff : ['/', '/'] <+: c :: rest ↔ c = '/' ∧ rest.head? = some '/' := by
  cases rest <;> simp [cons_prefix_cons, eq_comm]

/-- Of two readings on different sides of a quote, exactly one stops at the first two
slashes. -/
lemma beforeCommentIn_not_eq_iff (inQuote : Bool) (line : List Char) :
    beforeCommentIn (!inQuote) line = beforeCommentIn inQuote line ↔ ¬['/', '/'] <:+: line := by
  induction line generalizing inQuote with
  | nil => simp [beforeCommentIn]
  | cons c rest ih =>
    rw [infix_cons_iff, slashes_prefix_iff]
    by_cases hslsh : c = '/' ∧ rest.head? = some '/'
    · cases inQuote <;> simp [beforeCommentIn, hslsh]
    · have hquote : quoteAfter (!inQuote) c = !quoteAfter inQuote c := by
        unfold quoteAfter
        split <;> rfl
      rw [beforeCommentIn, beforeCommentIn, if_neg fun h => hslsh h.2,
        if_neg fun h => hslsh h.2, hquote, cons_inj_right, ih]
      simp [hslsh]

lemma beforeCommentIn_return (inQuote : Bool) (line : List Char) :
    beforeCommentIn inQuote (line ++ ['\r']) = beforeCommentIn inQuote line ∨
      beforeCommentIn inQuote (line ++ ['\r']) = line ++ ['\r'] := by
  induction line generalizing inQuote with
  | nil => simp [beforeCommentIn]
  | cons c rest ih =>
    have hhead : (rest ++ ['\r']).head? = some '/' ↔ rest.head? = some '/' := by
      cases rest <;> simp
    simp only [cons_append, beforeCommentIn, hhead]
    split
    · exact .inl rfl
    · exact (ih (quoteAfter inQuote c)).imp (congrArg (c :: ·)) (congrArg (c :: ·))

/-! ## Where the scan stops -/

lemma ListEnd.shift_eq_open {scanned : ListEnd} :
    scanned.shift 1 = .«open» depth inQuote ↔ scanned = .«open» depth inQuote := by
  cases scanned <;> simp [ListEnd.shift]

lemma scanParamList_cons_take (hclose : ¬(inQuote = false ∧ c = ')' ∧ depth ≤ 1))
    (hcom : ¬(inQuote = false ∧ c = '/' ∧ rest.head? = some '/')) (count : Nat) :
    scanParamList depth inQuote (c :: rest.take count) =
      (scanParamList (parensAfter depth inQuote c) (quoteAfter inQuote c)
        (rest.take count)).shift 1 := by
  refine scanParamList_cons hclose fun h => hcom ⟨h.1, h.2.1, ?_⟩
  have hhead := h.2.2
  rw [head?_take] at hhead
  split at hhead
  · cases hhead
  · exact hhead

lemma scanParamList_before_closing {text : List Char}
    (hshut : scanParamList depth inQuote text = .closed length) :
    ∃ inner, scanParamList depth inQuote (text.take (length - 1)) = .«open» inner false := by
  induction text generalizing depth inQuote length with
  | nil => cases hshut
  | cons c rest ih =>
    by_cases hclose : inQuote = false ∧ c = ')' ∧ depth ≤ 1
    · obtain ⟨rfl, rfl, hdepth⟩ := hclose
      have hlen : length = 1 := by simpa [scanParamList, hdepth, eq_comm] using hshut
      exact ⟨depth, by rw [hlen]; rfl⟩
    have hcom : ¬(inQuote = false ∧ c = '/' ∧ rest.head? = some '/') := by
      rintro ⟨rfl, rfl, hhead⟩
      simp [scanParamList, hhead] at hshut
    rw [scanParamList_cons hclose hcom] at hshut
    obtain ⟨shorter, hshorter, rfl⟩ := ListEnd.shift_eq_closed hshut
    obtain ⟨inner, hinner⟩ := ih hshorter
    obtain ⟨count, rfl⟩ := Nat.exists_eq_succ_of_ne_zero
      (Nat.ne_of_gt (closesAt_of_scanParamList hshorter).pos)
    refine ⟨inner, ?_⟩
    rw [Nat.add_sub_cancel, take_succ_cons, scanParamList_cons_take hclose hcom,
      ListEnd.shift_eq_open]
    exact hinner

namespace ListLine

variable {depth inner : Nat} {inQuote quoted : Bool} {c : Char} {rest text : List Char}

lemma meetsComment_zero_iff : (ListLine.mk depth inQuote (c :: rest)).MeetsComment 0 ↔
      inQuote = false ∧ c = '/' ∧ rest.head? = some '/' := by
  constructor
  · rintro ⟨hslsh, inner, hscan⟩
    cases hscan
    exact ⟨rfl, slashes_prefix_iff.mp hslsh⟩
  · rintro ⟨rfl, hslsh⟩
    exact ⟨slashes_prefix_iff.mpr hslsh, depth, rfl⟩

lemma meetsComment_succ_iff (hclose : ¬(inQuote = false ∧ c = ')' ∧ depth ≤ 1))
    (hcom : ¬(inQuote = false ∧ c = '/' ∧ rest.head? = some '/')) {column : Nat} :
    (ListLine.mk depth inQuote (c :: rest)).MeetsComment (column + 1) ↔
      (ListLine.mk (parensAfter depth inQuote c) (quoteAfter inQuote c) rest).MeetsComment
        column := by
  have hscan (inner : Nat) :
      scanParamList depth inQuote ((c :: rest).take (column + 1)) = .«open» inner false ↔
        scanParamList (parensAfter depth inQuote c) (quoteAfter inQuote c) (rest.take column) =
          .«open» inner false := by
    rw [take_succ_cons, scanParamList_cons_take hclose hcom, ListEnd.shift_eq_open]
  constructor
  · rintro ⟨hslsh, inner, hopen⟩
    exact ⟨hslsh, inner, (hscan inner).mp hopen⟩
  · rintro ⟨hslsh, inner, hopen⟩
    exact ⟨hslsh, inner, (hscan inner).mpr hopen⟩

/-- In a line that does not close the list, the scan stops at the comment that is found when the
search begins in the same state. -/
lemma cleared_beforeCommentIn (hopen : scanParamList depth inQuote text = .«open» inner quoted) :
    (ListLine.mk depth inQuote text).Cleared (beforeCommentIn inQuote text) := by
  induction text generalizing depth inQuote with
  | nil =>
    refine .inr ⟨fun column hmeets => ?_, rfl⟩
    simpa using hmeets.slashes
  | cons c rest ih =>
    by_cases hcom : inQuote = false ∧ c = '/' ∧ rest.head? = some '/'
    · rw [beforeCommentIn, if_pos hcom]
      exact .inl ⟨0, ⟨meetsComment_zero_iff.mpr hcom, by simp⟩, rfl⟩
    have hclose : ¬(inQuote = false ∧ c = ')' ∧ depth ≤ 1) := by
      rintro ⟨rfl, rfl, hdepth⟩
      simp [scanParamList, hdepth] at hopen
    rw [scanParamList_cons hclose hcom, ListEnd.shift_eq_open] at hopen
    have hsucc {column : Nat} := @meetsComment_succ_iff _ _ _ _ hclose hcom column
    have hzero : ¬(ListLine.mk depth inQuote (c :: rest)).MeetsComment 0 :=
      meetsComment_zero_iff.not.mpr hcom
    rw [beforeCommentIn, if_neg hcom]
    rcases ih hopen with ⟨column, hstops, hcode⟩ | ⟨hnone, hcode⟩
    · refine .inl ⟨column + 1, ⟨hsucc.mpr hstops.meets, fun earlier hearl => ?_⟩, ?_⟩
      · cases earlier with
        | zero => exact hzero
        | succ earlier =>
          exact fun hmeets => hstops.first earlier (Nat.lt_of_succ_lt_succ hearl) (hsucc.mp hmeets)
      · rw [hcode, take_succ_cons]
    · refine .inr ⟨fun column hmeets => ?_, by rw [hcode]⟩
      cases column with
      | zero => exact hzero hmeets
      | succ column => exact hnone column (hsucc.mp hmeets)

lemma exists_stopsAtComment_iff (hopen : scanParamList depth inQuote text = .«open» inner quoted) :
    (∃ column, (ListLine.mk depth inQuote text).StopsAtComment column) ↔
      beforeCommentIn inQuote text ≠ text := by
  rcases cleared_beforeCommentIn hopen with ⟨column, hstops, hcode⟩ | ⟨hnone, hcode⟩
  · refine iff_of_true ⟨column, hstops⟩ fun hwhole => ?_
    have hdrop : text.drop column ≠ [] := fun hnil => by
      simpa [hnil] using hstops.meets.slashes
    have hsplit := take_append_drop column text
    rw [hcode.symm.trans hwhole] at hsplit
    exact hdrop (append_right_eq_self.mp hsplit)
  · refine iff_of_false ?_ fun hne => hne hcode
    rintro ⟨column, hstops⟩
    exact hnone column hstops.meets

end ListLine

/-! ## Lines read afresh -/

lemma slashes_infix_return {line : List Char} :
    ['/', '/'] <:+: line ++ ['\r'] ↔ ['/', '/'] <:+: line := by
  rw [infix_concat_iff, or_iff_right]
  rintro ⟨front, hfront⟩
  simpa using congrArg getLast? hfront

lemma beforeComment_eq_iff (inQuote : Bool) (text : List Char) :
    beforeComment text = beforeCommentIn inQuote text ↔ (inQuote → ¬['/', '/'] <:+: text) := by
  rw [beforeComment_eq]
  cases inQuote with
  | false => simp
  | true => simpa using beforeCommentIn_not_eq_iff true text

lemma cleanLine_eq_iff {inner : Nat} {quoted : Bool} {text : List Char}
    (hopen : scanParamList depth inQuote text = .«open» inner quoted) :
    cleanLine text = beforeCommentIn inQuote text ↔ (inQuote → ¬['/', '/'] <:+: text) ∧
        (text.getLast? = some '\r' →
          ∃ column, (ListLine.mk depth inQuote text).StopsAtComment column) := by
  rw [ListLine.exists_stopsAtComment_iff hopen, cleanLine]
  by_cases hret : text.getLast? = some '\r'
  · obtain ⟨front, rfl⟩ := getLast?_eq_some_iff.mp hret
    have hdrop : dropReturn (front ++ ['\r']) = front := by simp [dropReturn]
    have hshort (inQuote : Bool) : beforeCommentIn inQuote front ≠ front ++ ['\r'] := fun heq => by
      have hle := ( beforeCommentIn_prefix inQuote front).length_le
      rw [heq, length_append, length_singleton] at hle
      omega
    rw [hdrop, slashes_infix_return]
    rcases beforeCommentIn_return inQuote front with hcut | hkept
    · simp [hcut, hshort, beforeComment_eq_iff]
    · simp [hkept, beforeComment_eq, hshort]
  · have hdrop : dropReturn text = text := if_neg hret
    simp [hdrop, hret, beforeComment_eq_iff]

def ListLine.code (line : ListLine) : List Char := beforeCommentIn line.inQuote line.text

def ListLine.IsOpen (line : ListLine) : Prop :=
  ∃ inner quoted, scanParamList line.depth line.inQuote line.text = .«open» inner quoted

lemma keptLines_concat (lines : List ListLine) (last : ListLine) : keptLines (lines ++ [last]) =
      lines.map (fun line => cleanLine line.text) ++ [beforeComment last.text] := by
  simp [keptLines]

lemma keptLines_eq_iff (hopen : ∀ line ∈ lines, line.IsOpen) :
    keptLines lines = lines.map ListLine.code ↔ CommentsAgree lines := by
  rcases eq_nil_or_concat lines with rfl | ⟨front, last, rfl⟩
  · exact iff_of_true rfl ⟨by simp, by simp⟩
  rw [concat_eq_append] at hopen ⊢
  have hline (line : ListLine) (hmem : line ∈ front) : cleanLine line.text = line.code ↔
        (line.inQuote → ¬['/', '/'] <:+: line.text) ∧
          (line.text.getLast? = some '\r' → ∃ column, line.StopsAtComment column) := by
    obtain ⟨inner, quoted, hscan⟩ := hopen line (mem_append_left _ hmem)
    exact cleanLine_eq_iff hscan
  have hlast : beforeComment last.text = last.code ↔ (last.inQuote → ¬['/', '/'] <:+: last.text) :=
    beforeComment_eq_iff last.inQuote last.text
  have hsplit : keptLines (front ++ [last]) = (front ++ [last]).map ListLine.code ↔
      (∀ line ∈ front, cleanLine line.text = line.code) ∧ beforeComment last.text = last.code := by
    rw [keptLines_concat, map_append, map_singleton]
    constructor
    · intro h
      obtain ⟨hfront, hend⟩ := append_inj' h rfl
      exact ⟨map_inj_left.mp hfront, singleton_inj.mp hend⟩
    · rintro ⟨hfront, hend⟩
      rw [map_inj_left.mpr hfront, hend]
  rw [hsplit, hlast]
  constructor
  · rintro ⟨hfront, hend⟩
    have hlater : ∀ line ∈ [last], line.inQuote → ¬['/', '/'] <:+: line.text :=
      forall_mem_singleton.mpr hend
    refine ⟨forall_mem_append.mpr ⟨fun line hmem => ?_, hlater⟩, ?_⟩
    · exact ((hline line hmem).mp (hfront line hmem)).1
    · rw [dropLast_concat]
      exact fun line hmem => ((hline line hmem).mp (hfront line hmem)).2
  · rintro ⟨hslsh, hreturns⟩
    rw [dropLast_concat] at hreturns
    obtain ⟨hfront, hend⟩ := forall_mem_append.mp hslsh
    exact ⟨fun line hmem => (hline line hmem).mpr ⟨hfront line hmem, hreturns line hmem⟩,
      hend last mem_cons_self⟩

lemma forall₂_cleared (hopen : ∀ line ∈ lines, line.IsOpen) :
    Forall₂ ListLine.Cleared lines (lines.map ListLine.code) := by
  rw [forall₂_map_right_iff, forall₂_same]
  intro line hline
  obtain ⟨inner, quoted, hscan⟩ := hopen line hline
  exact ListLine.cleared_beforeCommentIn hscan

/-! ## The lines of a list -/

section

variable {depth inner : Nat} {inQuote quoted : Bool} {line : List Char}

lemma paramLines_of_closed (hscan : scanParamList depth inQuote line = .closed length)
    (following : List (List Char)) :
    paramLines depth inQuote line following = [⟨depth, inQuote, line.take (length - 1)⟩] := by
  rw [paramLines.eq_def, hscan]

lemma paramLines_of_open
    (hscan : scanParamList depth inQuote line = .«open» inner quoted) (next : List Char)
    (rest : List (List Char)) :
    paramLines depth inQuote line (next :: rest) = ⟨depth, inQuote, line⟩ ::
        if isMethodBoundary next then [] else paramLines inner quoted next rest := by
  rw [paramLines.eq_def, hscan]

lemma paramLines_of_last (hscan : scanParamList depth inQuote line = .«open» inner quoted) :
    paramLines depth inQuote line [] = [⟨depth, inQuote, line⟩] := by
  rw [paramLines.eq_def, hscan]

lemma paramLines_ne_nil (following : List (List Char)) :
    paramLines depth inQuote line following ≠ [] := by
  rw [paramLines.eq_def]
  split <;> simp

lemma mem_paramLines {following : List (List Char)} {listed : ListLine}
    (hlisted : listed ∈ paramLines depth inQuote line following) :
    listed.IsOpen ∧ ∃ source ∈ line :: following, listed.text <+: source := by
  fun_induction paramLines depth inQuote line following with
  | case1 following depth inQuote line length hscan =>
    obtain rfl := mem_singleton.mp hlisted
    obtain ⟨inner, hopen⟩ := scanParamList_before_closing hscan
    exact ⟨⟨inner, false, hopen⟩, line, mem_cons_self, take_prefix _ _⟩
  | case2 depth inQuote line inner quoted hscan =>
    obtain rfl := mem_singleton.mp hlisted
    exact ⟨⟨inner, quoted, hscan⟩, line, mem_cons_self, prefix_rfl⟩
  | case3 depth inQuote line inner quoted next rest hscan ih =>
    rcases mem_cons.mp hlisted with rfl | hlater
    · exact ⟨⟨inner, quoted, hscan⟩, line, mem_cons_self, prefix_rfl⟩
    · split at hlater
      · cases hlater
      · obtain ⟨hopen, source, hsrc, hpart⟩ := ih hlater
        exact ⟨hopen, source, mem_cons_of_mem _ hsrc, hpart⟩

lemma joinWith_paramLines (hscan : scanParamList depth inQuote line = .«open» inner quoted)
    (following : List (List Char)) :
    joinWith ['\n'] ((paramLines depth inQuote line following).map ListLine.text) =
      line ++ (ParamList.continued inner quoted following).text := by
  induction following generalizing depth inQuote line inner quoted with
  | nil => simp [paramLines_of_last hscan, joinWith, ParamList.continued]
  | cons next rest ih =>
    rw [paramLines_of_open hscan, ParamList.continued]
    by_cases hbdry : isMethodBoundary next
    · simp [hbdry, joinWith]
    simp only [if_neg hbdry]
    rw [map_cons, joinWith_cons _ _ (by simpa using paramLines_ne_nil rest)]
    cases hnext : scanParamList inner quoted next with
    | closed length => simp [paramLines_of_closed hnext, joinWith]
    | «open» depth inQuote => simp [ih hnext]

lemma joinWith_paramLines_read (first : List Char) (following : List (List Char)) :
    joinWith ['\n'] ((paramLines 1 false first following).map ListLine.text) =
      (ParamList.read first following).text := by
  cases hscan : scanParamList 1 false first with
  | closed length =>
    rw [ParamList.read_of_closed hscan, paramLines_of_closed hscan]
    rfl
  | «open» inner quoted => rw [ParamList.read_of_open hscan, joinWith_paramLines hscan]

end

/-- The parameters of a list are those of the lines that are kept.  An empty last line is not
kept, which makes no difference. -/
lemma parseParams_joinWith (hne : lines ≠ []) (hbreak : ∀ line ∈ lines, '\n' ∉ line.text) :
    parseParams (joinWith ['\n'] (lines.map ListLine.text)) = listParams (keptLines lines) := by
  obtain ⟨front, last, rfl⟩ := (eq_nil_or_concat lines).resolve_left hne
  rw [concat_eq_append] at hbreak ⊢
  have hpcs : splitOn '\n' (joinWith ['\n'] ((front ++ [last]).map ListLine.text)) =
      front.map ListLine.text ++ [last.text] := by
    rw [splitOn_joinWith (forall_mem_map.mpr hbreak) (by simp), map_append, map_singleton]
  rw [parseParams_eq, stripLineComments_eq hpcs, listParams, keptLines_concat, map_map]
  by_cases hlast : last.text = []
  · rw [if_pos hlast, append_nil, hlast]
    by_cases hfront : front = []
    · subst hfront
      rfl
    · have hgap : ∀ c ∈ ['\n'], isBlank c := forall_mem_singleton.mpr (by decide)
      rw [joinWith_append _ (by simpa using hfront) (by simp),
        show joinWith ['\n'] [beforeComment []] = [] from rfl, append_nil,
        filterMap_ofPiece?_append_blank hgap]
      rfl
  · rw [if_neg hlast]
    rfl

end BslInsight
