import BslInsight.Proofs.ListComments
import BslInsight.Proofs.NamePlaces

/-!
# The parameters that a module records

The list of a method is read once, when its header is visited, and nothing changes it later.  So
the parameters in the table are those that the scan of the list saw, wherever both find the same
comments.
-/

namespace BslInsight

open List

variable {text : String}

lemma LineVisit.eq_of_number {visit other : LineVisit} (hvisit : visit ∈ moduleVisits text)
    (hoth : other ∈ moduleVisits text) (hnum : visit.number = other.number)
    (hhdr : visit.header?.isSome) (hfound : other.header?.isSome) :
    visit = other := by
  have hdrop := (drop_of_mem_visits hvisit).2
  rw [hnum, (drop_of_mem_visits hoth).2] at hdrop
  obtain ⟨hline, hfoll⟩ := List.cons.inj hdrop
  have houtside := (inString_of_header hhdr).trans (inString_of_header hfound).symm
  cases visit
  cases other
  exact LineVisit.mk.injEq .. ▸ ⟨hnum, houtside, hline.symm, hfoll.symm⟩

/-- Every header opens a method, and the table has it with the parameters of its list. -/
lemma exists_method_of_visit {visit : LineVisit} (hvisit : visit ∈ moduleVisits text)
    {list : ParamList} (hlist : visit.paramList? = some list) (file : Path) (dialect : Dialect) :
    ∃ method ∈ (parseModule file dialect text).methods,
      method.range.startLine = visit.number ∧ method.params = parseParams list.text := by
  have hhdr {visit : LineVisit} {list : ParamList} (hlist : visit.paramList? = some list) :
      visit.header?.isSome := by
    obtain ⟨header, hhdr, -⟩ := Option.map_eq_some_iff.mp hlist
    rw [hhdr]
    rfl
  have hopening : visit.number ∈ (parseModule file dialect text).methodLines := by
    rw [methodLines_parseModule]
    exact mem_map_of_mem (mem_filter.mpr ⟨hvisit, hhdr hlist⟩)
  obtain ⟨method, hmeth, hstart⟩ := mem_map.mp hopening
  obtain ⟨hsym, hkind⟩ := mem_filter.mp hmeth
  obtain ⟨other, hoth, header, hfound, hplace, -, hpars⟩ := exists_header_of_mem_symbols hsym hkind
  obtain rfl := LineVisit.eq_of_number hvisit hoth
    (hstart.symm.trans (congrArg NamePlace.line hplace)) (hhdr hlist) (by rw [hfound]; rfl)
  rw [LineVisit.paramList?, hfound] at hlist
  obtain rfl := Option.some.inj hlist
  exact ⟨method, hmeth, hstart, hpars⟩

def LineVisit.paramLines (visit : LineVisit) (header : Header) : List ListLine :=
  BslInsight.paramLines 1 false (visit.line.drop header.paramsStart) visit.following

/-- The parameters of a method are those of the lines of its list, each read as if it began
outside of strings.  What is kept of the lines is what the scan of the list saw if and only
if both find the same comments, and then the parameters are those that the scan saw. -/
theorem parseModule_listComments
    (file : Path) (dialect : Dialect) {text : String} {visit : LineVisit}
    (hvisit : visit ∈ moduleVisits text) {header : Header} (hheader : visit.header? = some header) :
    let lines := visit.paramLines header
    ∃ method ∈ (parseModule file dialect text).methods, method.range.startLine = visit.number ∧
      ∃ codes, Forall₂ ListLine.Cleared lines codes ∧ method.params = listParams (keptLines lines) ∧
        (keptLines lines = codes ↔ CommentsAgree lines) ∧
        (CommentsAgree lines → method.params = listParams codes) := by
  intro lines
  let first := visit.line.drop header.paramsStart
  have hlist : visit.paramList? = some (ParamList.read first visit.following) := by
    rw [LineVisit.paramList?, hheader]
    rfl
  obtain ⟨method, hmethod, hstart, hparams⟩ := exists_method_of_visit hvisit hlist file dialect
  have hopen (line : ListLine) (hline : line ∈ lines) : line.IsOpen := (mem_paramLines hline).1
  have hbreak (line : ListLine) (hline : line ∈ lines) : '\n' ∉ line.text := by
    obtain ⟨-, source, hsource, hpart⟩ := mem_paramLines hline
    have hdrop := (drop_of_mem_visits hvisit).2
    have hsuffix := (moduleLines text).drop_suffix (visit.number - 0)
    rw [hdrop] at hsuffix
    intro hmem
    rcases mem_cons.mp hsource with rfl | hlater
    · exact break_not_mem_moduleLines (hsuffix.subset mem_cons_self)
        (mem_of_mem_drop (hpart.subset hmem))
    · exact break_not_mem_moduleLines (hsuffix.subset (mem_cons_of_mem _ hlater))
        (hpart.subset hmem)
  have hkept : method.params = listParams (keptLines lines) := by
    rw [hparams, ← joinWith_paramLines_read]
    exact parseParams_joinWith (paramLines_ne_nil _) hbreak
  refine ⟨method, hmethod, hstart, lines.map ListLine.code, forall₂_cleared hopen, hkept,
    keptLines_eq_iff hopen, fun hagree => ?_⟩
  rw [hkept, (keptLines_eq_iff hopen).mpr hagree]

/-- A quote in a comment opens no string, and a comma in a string over two lines separates
nothing. -/
theorem parseModule_listComments_string :
    let text := "Процедура А(Б, // \", В\nГ = \"х\n|,у\", Д)"
    let visit : LineVisit :=
      ⟨0, false, "Процедура А(Б, // \", В".toList, ["Г = \"х".toList, "|,у\", Д)".toList]⟩
    let header : Header := ⟨.procedure, "А", 10, 12⟩
    visit ∈ moduleVisits text ∧ visit.header? = some header ∧
      CommentsAgree (visit.paramLines header) ∧
      ∃ method ∈ (parseModule (Path.ofText "m.bsl") .bsl text).methods,
        method.range.startLine = 0 ∧ ∃ codes,
          Forall₂ ListLine.Cleared (visit.paramLines header) codes ∧
            method.params = listParams codes := by
  intro text visit header
  have hlines : moduleLines text = visit.line :: visit.following := by decide +kernel
  have hvisit : visit ∈ moduleVisits text := by
    rw [moduleVisits, hlines, visits]
    exact mem_cons_self
  have hheader : visit.header? = some header := by decide +kernel
  have hmarks : ∀ line ∈ visit.paramLines header,
      (line.inQuote = true → ¬['/', '/'] <:+: line.text) ∧ line.text.getLast? ≠ some '\r' := by
    decide +kernel
  have hagree : CommentsAgree (visit.paramLines header) :=
    ⟨fun line hline => (hmarks line hline).1, fun line hline hreturn =>
      absurd hreturn (hmarks line ((dropLast_sublist _).mem hline)).2⟩
  obtain ⟨method, hmethod, hstart, codes, hcodes, -, -, hparams⟩ :=
    parseModule_listComments (Path.ofText "m.bsl") .bsl hvisit hheader
  exact ⟨hvisit, hheader, hagree, method, hmethod, hstart, codes, hcodes, hparams hagree⟩

/-- Slashes in a string over two lines are dropped as a comment, and a comment behind such a
string declares a parameter. -/
theorem not_listParams_behind_string :
    let text := "Процедура П(А=\"\n//\",Б=\"\n\",//,В\nГ)"
    let visit : LineVisit :=
      ⟨0, false, "Процедура П(А=\"".toList, ["//\",Б=\"".toList, "\",//,В".toList, "Г)".toList]⟩
    let header : Header := ⟨.procedure, "П", 10, 12⟩
    visit ∈ moduleVisits text ∧ visit.header? = some header ∧
      visit.paramList?.map ParamList.closed = some true ∧
      (∃ codes, Forall₂ ListLine.Cleared (visit.paramLines header) codes ∧ listParams codes =
          [⟨"А", false, some "\"\n//\""⟩, ⟨"Б", false, some "\"\n\""⟩, ⟨"Г", false, none⟩]) ∧
      (parseModule (Path.ofText "m.bsl") .bsl text).methods.map (·.params) =
        [[⟨"А", false, some "\"\n\n\""⟩, ⟨"В", false, none⟩]] := by
  intro text visit header
  have hlines : moduleLines text = visit.line :: visit.following := by decide +kernel
  have hvisit : visit ∈ moduleVisits text := by
    rw [moduleVisits, hlines, visits]
    exact mem_cons_self
  have hheader : visit.header? = some header ∧
      visit.paramList?.map ParamList.closed = some true := by
    decide +kernel
  refine ⟨hvisit, hheader.1, hheader.2, ⟨_, forall₂_cleared ?_, ?_⟩, by decide +kernel⟩
  · exact fun line hline => (mem_paramLines hline).1
  · decide +kernel

end BslInsight
