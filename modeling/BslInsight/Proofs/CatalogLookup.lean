import BslInsight.Catalog

/-!
# What the indexes of a catalog find

A name keeps the place in an index that it got first, so that a lookup is a search for the first
item that has the name.  Classes come before enumerations.
-/

namespace BslInsight

open List

variable (index : NameIndex)

namespace Catalog

namespace NameIndex

theorem lookup_add (place : Nat) (name key : String) : (index.add place name).lookup key =
      (index.lookup key).or (if lower name = key then some place else none) := by
  unfold add
  split
  next hknown =>
    by_cases hkey : lower name = key
    · subst hkey
      obtain ⟨old, hold⟩ := Option.isSome_iff_exists.mp hknown
      rw [hold, Option.some_or]
    · rw [if_neg hkey, Option.or_none]
  next =>
    rw [lookup_append]
    by_cases hkey : lower name = key
    · simp [hkey]
    · have hoth : (key == lower name) = false := by simpa using fun h => hkey h.symm
      simp [hkey, lookup_cons, hoth]

theorem lookup_foldl_add (place : Nat) (names : List String) (key : String) :
    (names.foldl (add · place) index).lookup key =
      (index.lookup key).or (if names.any (lower · == key) then some place else none) := by
  induction names generalizing index with
  | nil => simp
  | cons name rest ih =>
    rw [foldl_cons, ih, lookup_add, Option.or_assoc, any_cons]
    by_cases hkey : lower name = key
    · simp [hkey]
    · simp [hkey]

theorem lookup_ofNames (place : Nat) (items : List (List String)) (key : String) :
    (ofNames index place items).lookup key = (index.lookup key).or
        ((items.findIdx? fun names => names.any (lower · == key)).map (· + place)) := by
  induction items generalizing index place with
  | nil => simp [ofNames]
  | cons names rest ih =>
    rw [ofNames, ih, lookup_foldl_add, Option.or_assoc, findIdx?_cons]
    by_cases hnames : names.any (lower · == key)
    · simp [hnames]
    · simp [hnames, Function.comp_def, Nat.add_comm, Nat.add_left_comm]

theorem find?_ofNames {α : Type} (items : List α) (names : α → List String) (name : String) :
    (ofNames [] 0 (items.map names)).find? items name =
      items.find? fun item => (names item).any (sameName · name) := by
  rw [find?, lookup_ofNames, findIdx?_map, find?_eq_bind_findIdx?_getElem?]
  simp [Function.comp_def, sameName]

end NameIndex

theorem Entry.matchesName_of_mem
    {entry : Entry} {label name : String} (hlabel : label ∈ entry.names)
    (hname : lower label = lower name) : entry.matchesName name :=
  any_eq_true.mpr ⟨label, hlabel, by rw [sameName, hname, beq_self_eq_true]⟩

theorem Entry.displayName_mem_names (entry : Entry) (locale : Locale) :
    entry.displayName locale ∈ entry.names := by
  cases locale with
  | ru => exact mem_cons_self
  | en => cases halternate : entry.alternate? <;> simp [displayName, names, halternate]

variable (dialect : Dialect) (description : Description) (name : String)

theorem global?_ofDescription : (ofDescription dialect description).global? name =
      (ofDescription dialect description).globals.find? (·.matchesName name) :=
  NameIndex.find?_ofNames _ Entry.names name

theorem type?_ofDescription : (ofDescription dialect description).type? name =
      (ofDescription dialect description).types.find? (·.entry.matchesName name) :=
  NameIndex.find?_ofNames _ (fun type : CatalogType => type.entry.names) name

theorem lookup?_isSome_of_mem {entry : Entry} (hentry :
      entry ∈ (ofDescription dialect description).globals ++
        (ofDescription dialect description).types.map (·.entry))
    (hmatches : entry.matchesName name) :
    ((ofDescription dialect description).lookup? name).isSome := by
  simp only [lookup?, global?_ofDescription, type?_ofDescription, Option.orElse_eq_orElse,
    Option.orElse_eq_or, Option.isSome_or, Option.isSome_map, Bool.or_eq_true, find?_isSome]
  rcases mem_append.mp hentry with hglobal | hofType
  · exact .inl ⟨entry, hglobal, hmatches⟩
  · obtain ⟨type, htype, rfl⟩ := mem_map.mp hofType
    exact .inr ⟨type, htype, hmatches⟩

theorem member?_of_mem_types
    {type : CatalogType} (htype : type ∈ (ofDescription dialect description).types) :
    type.member? name = type.members.find? (·.matchesName name) := by
  have hindexed : type.memberIndex = .ofNames [] 0 (type.members.map Entry.names) := by
    rcases mem_append.mp htype with hclass | henum
    · obtain ⟨⟨key, record⟩, -, rfl⟩ := mem_map.mp hclass
      rfl
    · obtain ⟨⟨key, record⟩, -, rfl⟩ := mem_map.mp henum
      rfl
  rw [CatalogType.member?, hindexed]
  exact NameIndex.find?_ofNames _ Entry.names name

theorem filter_find?_append {α : Type} {p kept : α → Bool} {front back : List α}
    (hfront : ∀ item ∈ front, kept item) (hback : ∀ item ∈ back, kept item = false) :
    ((front ++ back).find? p).filter kept = ((front ++ back).filter kept).find? p := by
  have hfiltered : (front ++ back).filter kept = front := by
    rw [filter_append, filter_eq_self.mpr hfront,
      filter_eq_nil_iff.mpr fun item hitem => by simp [hback item hitem], append_nil]
  rw [hfiltered, find?_append]
  cases hfound : front.find? p with
  | some item =>
    rw [Option.some_or, Option.filter_some, if_pos (hfront item (mem_of_find?_eq_some hfound))]
  | none =>
    rw [Option.none_or, Option.filter_eq_none_iff]
    intro item hitem
    rw [hback item (mem_of_find?_eq_some hitem)]
    exact Bool.false_ne_true

theorem class?_ofDescription : (ofDescription dialect description).class? name =
      (ofDescription dialect description).classes.find? (·.entry.matchesName name) := by
  rw [class?, type?_ofDescription]
  refine filter_find?_append ?_ ?_
  · intro type htype
    obtain ⟨⟨key, record⟩, -, rfl⟩ := mem_map.mp htype
    rfl
  · intro type htype
    obtain ⟨⟨key, record⟩, -, rfl⟩ := mem_map.mp htype
    rfl

/-- Every lookup gives what a search through the lists of the catalog finds first. -/
structure SearchesInOrder (catalog : Catalog) : Prop where
  global (name : String) : catalog.global? name = catalog.globals.find? (·.matchesName name)
  type (name : String) : catalog.type? name = catalog.types.find? (·.entry.matchesName name)
  «class» (name : String) : catalog.class? name = catalog.classes.find? (·.entry.matchesName name)
  member (type name : String) : catalog.member? type name =
      (catalog.types.find? (·.entry.matchesName type)).bind (·.members.find? (·.matchesName name))
  lookup (name : String) : catalog.lookup? name = (catalog.globals.find? (·.matchesName name)).or
        ((catalog.types.find? (·.entry.matchesName name)).map (·.entry))

theorem ofDescription_searchesInOrder : (ofDescription dialect description).SearchesInOrder where
  global := global?_ofDescription dialect description
  type := type?_ofDescription dialect description
  «class» := class?_ofDescription dialect description
  member type name := by
    rw [member?, type?_ofDescription]
    cases hfound : (ofDescription dialect description).types.find? (·.entry.matchesName type) with
    | none => rfl
    | some found => exact member?_of_mem_types dialect description name (mem_of_find?_eq_some hfound)
  lookup name := by
    rw [lookup?, global?_ofDescription, type?_ofDescription, Option.orElse_eq_orElse,
      Option.orElse_eq_or]

end Catalog

end BslInsight
