import Mathlib.Data.String.Basic
import Mathlib.Order.Compare
import BslInsight.Proofs.CompletionAgreement
import BslInsight.Proofs.CursorWords
import BslInsight.Proofs.StableSort

/-!
# The order of candidates

Candidates come in buckets, one for each source, which are sorted by name and put one behind the
other.  Names that came before are left out, so no name is offered twice, and the order stays.
-/

namespace BslInsight

open List

variable {typed : String} {source : Source} {resolver : Resolver} {locale : Locale}
  {buckets : List (List Candidate)}

/-! ## Merging -/

lemma dropSeen_sublist (seen : List String) (candidates : List Candidate) :
    (dropSeen seen candidates).Sublist candidates := by
  fun_induction dropSeen seen candidates with
  | case1 => exact .slnil
  | case2 seen candidate rest _ ih => exact ih.cons candidate
  | case3 seen candidate rest _ ih => exact ih.cons_cons candidate

lemma pairwise_dropSeen (seen : List String) (candidates : List Candidate) :
    (dropSeen seen candidates).Pairwise fun first second =>
      first.lowerLabel ≠ second.lowerLabel := by
  fun_induction dropSeen seen candidates with
  | case1 => exact .nil
  | case2 seen candidate rest _ ih => exact ih
  | case3 seen candidate rest _ ih =>
    refine pairwise_cons.mpr ⟨fun other hoth heq => ?_, ih⟩
    exact (mem_dropSeen_iff.mp hoth).1 (heq ▸ mem_cons_self)

lemma pairwise_mergeSort_before (bucket : List Candidate) :
    (bucket.mergeSort Candidate.before).Pairwise fun first second =>
      first.lowerLabel ≤ second.lowerLabel := by
  have hsort := pairwise_mergeSort_isLE
    (compareLex (compareOn Candidate.lowerLabel) (compareOn Candidate.label)) bucket
  refine hsort.imp fun hle => ?_
  rcases Ordering.isLE_then_iff_or.mp hle with hlt | ⟨heq, -⟩
  · exact (compare_lt_iff_lt.mp hlt).le
  · exact (compare_eq_iff_eq.mp heq).le

def IsBucket (typed : String) (source : Source) (bucket : List Candidate) : Prop :=
  ∀ candidate ∈ bucket, candidate.source = source ∧ beginsWith typed candidate.lowerLabel = true

/-- The order of candidates: by source, and in one source by name. -/
def Candidate.Precedes (first second : Candidate) : Prop := first.source.rank ≤ second.source.rank ∧
    (first.source = second.source → first.lowerLabel ≤ second.lowerLabel)

def AreLayers (typed : String) (buckets : List (List Candidate)) : Prop :=
  ∃ layers : List (Source × List Candidate), buckets = layers.map Prod.snd ∧
    (∀ layer ∈ layers, IsBucket typed layer.1 layer.2) ∧
      layers.Pairwise fun first second => first.1.rank < second.1.rank

lemma AreLayers.pairwise_mergeBuckets (hbuckets : AreLayers typed buckets) :
    (mergeBuckets buckets).Pairwise Candidate.Precedes := by
  obtain ⟨layers, rfl, hlayers, hsrcs⟩ := hbuckets
  refine Pairwise.sublist (dropSeen_sublist _ _) ?_
  rw [flatMap_map, pairwise_flatMap]
  constructor
  · intro layer hlayer
    refine (pairwise_mergeSort_before layer.2).imp_of_mem fun hfirst hsnd hle => ?_
    have hfirst := (hlayers layer hlayer _ (mem_mergeSort.mp hfirst)).1
    have hsnd := (hlayers layer hlayer _ (mem_mergeSort.mp hsnd)).1
    exact ⟨by rw [hfirst, hsnd], fun _ => hle⟩
  · refine hsrcs.imp_of_mem fun hlayer hoth hlt candidate hfirst other hsnd => ?_
    have hfirst := (hlayers _ hlayer candidate (mem_mergeSort.mp hfirst)).1
    have hsnd := (hlayers _ hoth other (mem_mergeSort.mp hsnd)).1
    rw [Candidate.Precedes, hfirst, hsnd]
    exact ⟨hlt.le, fun heq => absurd (congrArg Source.rank heq) hlt.ne⟩

lemma AreLayers.begins (hbuckets : AreLayers typed buckets) {candidate : Candidate}
    (hcand : candidate ∈ mergeBuckets buckets) :
    beginsWith typed candidate.lowerLabel := by
  obtain ⟨layers, rfl, hlayers, -⟩ := hbuckets
  obtain ⟨bucket, hbucket, hmem⟩ := mem_of_mem_mergeBuckets hcand
  obtain ⟨layer, hlayer, rfl⟩ := mem_map.mp hbucket
  exact (hlayers layer hlayer candidate hmem).2

/-! ## The buckets of a query -/

lemma isBucket_symbolCandidates (typed : String) (source : Source) (symbols : List Symbol) :
    IsBucket typed source (symbolCandidates typed source symbols) := by
  intro candidate hcand
  obtain ⟨symbol, hsym, rfl⟩ := mem_map.mp hcand
  exact ⟨rfl, (mem_filter.mp hsym).2⟩

lemma isBucket_entryCandidates (typed : String) (locale : Locale) (entries : List Catalog.Entry) :
    IsBucket typed .catalog (entryCandidates typed locale entries) := by
  intro candidate hcand
  obtain ⟨entry, -, -, hbeg, hentry⟩ := exists_of_mem_entryCandidates hcand
  refine ⟨?_, hbeg⟩
  rw [hentry]
  rfl

lemma IsBucket.areLayers {bucket : List Candidate} (hbucket : IsBucket typed source bucket) :
    AreLayers typed [bucket] :=
  ⟨[(source, bucket)], rfl, forall_mem_singleton.mpr hbucket, pairwise_singleton _ _⟩

lemma Resolver.areLayers_buckets (resolver : Resolver) (typing : Typing) (line : Nat)
    (locale : Locale) :
    AreLayers (lower typing.typed) (resolver.buckets typing line locale) := by
  have hsyms := isBucket_symbolCandidates (lower typing.typed)
  have hents := isBucket_entryCandidates (lower typing.typed) locale
  unfold buckets
  split
  next => exact (hents _).areLayers
  next chain _ =>
    cases chain.bind (resolver.receiverType? · line) with
    | none => exact ⟨[], rfl, by simp, .nil⟩
    | some type =>
      cases type with
      | catalog type => exact (hents _).areLayers
      | module table => exact (hsyms _ _).areLayers
  next =>
    let symbols := symbolCandidates (lower typing.typed)
    refine ⟨[(.method, symbols _ _), (.module, symbols _ _), (.workspace, symbols _ _),
      (.catalog, entryCandidates _ _ _)], rfl, ?_, by simp [Source.rank]⟩
    simp only [forall_mem_cons]
    exact ⟨hsyms _ _, hsyms _ _, hsyms _ _, hents _, by simp⟩

namespace Typing

variable {before typed : List Char}

lemma atEnd_append (htyped : ∀ c ∈ typed, isWordChar c)
    (hbef : before.getLast?.any isWordChar = false) :
    wordBefore (before ++ typed).reverse = typed ∧
      (before ++ typed).reverse.dropWhile isWordChar = before.reverse := by
  have hlast : before.reverse.head?.any isWordChar = false := by simpa using hbef
  rw [reverse_append]
  exact ⟨wordBefore_append htyped hlast, dropWhile_append_of_head (by simpa using htyped) hlast⟩

lemma trigger_atEnd_new (htyped : ∀ c ∈ typed, isWordChar c)
    (hbef : before.getLast?.any isWordChar = false) {front word gap : List Char}
    (hsplit : before = front ++ (word ++ gap)) (hfront : front.getLast?.any isWordChar = false)
    (hgap : ∀ c ∈ gap, isBlank c)
    (hnew : Keyword.ofWord? (String.ofList word) = some .new) :
    (atEnd (before ++ typed)).trigger = .newExpression := by
  obtain ⟨-, hne, hlets⟩ := folded_of_ofWord? hnew
  have hword : ∀ c ∈ word, isWordChar c := fun c hc => isWordChar_of_isLetter (hlets c hc)
  have hends := endsWithNew_reverse hgap hword hne hfront
  simp only [atEnd, (atEnd_append htyped hbef).2]
  rw [hsplit]
  split
  next receiver hdot => exact absurd hdot (trimStart_reverse_ne_dot hgap hword hne front receiver)
  next => rw [hends, hnew, beq_self_eq_true, if_pos rfl]

end Typing

lemma exists_split (text : List Char) :
    ∃ before typed : List Char, text = before ++ typed ∧ (∀ c ∈ typed, isWordChar c) ∧
      before.getLast?.any isWordChar = false := by
  refine ⟨(text.reverse.dropWhile isWordChar).reverse, wordBefore text.reverse, ?_, ?_, ?_⟩
  · rw [wordBefore, ← reverse_append, takeWhile_append_dropWhile, reverse_reverse]
  · intro c hc
    exact mem_takeWhile_imp (mem_reverse.mp hc)
  · rw [getLast?_reverse]
    exact any_head_dropWhile isWordChar text.reverse

/-- Candidates come in the order of their sources and in one source in the order of their names, no
name twice; they begin as typed, and for a new object they are classes of the catalog. -/
theorem Resolver.completions_ordered (resolver : Resolver) (position : Position) (locale : Locale) :
    let candidates := resolver.completions position locale
    (candidates.Pairwise fun first second =>
      first.source.rank ≤ second.source.rank ∧
        (first.source = second.source → first.lowerLabel < second.lowerLabel) ∧
        first.lowerLabel ≠ second.lowerLabel) ∧
    ∃ before typed : List Char,
      ((resolver.line? position.line).getD []).take position.column = before ++ typed ∧
      (∀ c ∈ typed, isWordChar c = true) ∧ before.getLast?.any isWordChar = false ∧
      (∀ candidate ∈ candidates,
        (lower (String.ofList typed)).toList <+: candidate.lowerLabel.toList) ∧
      ∀ front word gap, before = front ++ (word ++ gap) →
        front.getLast?.any isWordChar = false → (∀ c ∈ gap, isBlank c = true) →
        lower (String.ofList word) ∈ ["новый", "new"] →
        ∀ candidate ∈ candidates, ∃ type ∈ resolver.catalog.types,
          type.entry.kind = .«class» ∧ candidate.label ∈ type.entry.names ∧
            candidate = .ofEntry locale type.entry candidate.label := by
  intro candidates
  have hlayers := resolver.areLayers_buckets (resolver.typingAt position) position.line locale
  refine ⟨?_, ?_⟩
  · have hdistinct := pairwise_dropSeen [] ((resolver.buckets (resolver.typingAt position)
      position.line locale).flatMap (·.mergeSort Candidate.before))
    refine (hlayers.pairwise_mergeBuckets.and hdistinct).imp ?_
    rintro first second ⟨⟨hrank, hle⟩, hne⟩
    exact ⟨hrank, fun hsource => lt_of_le_of_ne (hle hsource) hne, hne⟩
  · obtain ⟨before, typed, htext, htyped, hbefore⟩ := exists_split
      (((resolver.line? position.line).getD []).take position.column)
    refine ⟨before, typed, htext, htyped, hbefore, ?_, ?_⟩
    · intro candidate hcandidate
      have hbegins := hlayers.begins hcandidate
      rw [typingAt, htext, Typing.atEnd, (Typing.atEnd_append htyped hbefore).1] at hbegins
      exact isPrefixOf_iff_prefix.mp hbegins
    · intro front word gap hsplit hfront hgap hword candidate hcandidate
      have hnew : Keyword.ofWord? (String.ofList word) = some .new := by
        simp only [mem_cons, not_mem_nil, or_false] at hword
        rw [Keyword.ofWord?]
        rcases hword with hword | hword <;> rw [hword] <;> decide
      have htrigger := Typing.trigger_atEnd_new htyped hbefore hsplit hfront hgap hnew
      obtain ⟨bucket, hbucket, hmem⟩ := mem_of_mem_mergeBuckets hcandidate
      rw [typingAt, htext, buckets, htrigger, mem_singleton] at hbucket
      rw [hbucket] at hmem
      obtain ⟨entry, hentry, hlabel, -, hof⟩ := exists_of_mem_entryCandidates hmem
      obtain ⟨type, htype, rfl⟩ := mem_map.mp hentry
      obtain ⟨htype, hclass⟩ := mem_filter.mp htype
      exact ⟨type, htype, beq_iff_eq.mp hclass, hlabel, hof⟩

end BslInsight
