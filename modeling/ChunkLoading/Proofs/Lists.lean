import Mathlib.Data.List.Infix
import Mathlib.Data.List.Lemmas
import Mathlib.Data.List.Nodup

/-!
# Lists

Facts on lists that several parts of the theory use. Most queries of a graph join lists and remove the
duplicates, which leaves each item where it first stands. So what is proved about their order is proved about
first occurrences: where an item first stands in a filtered list (`exists_split_of_filter`) or in joined lists
(`exists_of_flatMap`), that items without duplicates are related if each first occurrence is related to what
stands before it (`pairwise_eraseDups`), and that a sort leaves equal items in the order in which they were
(`pairwise_mergeSort_stable`). Code and agendas are joined from parts: `append_eq_append_cons_iff` and
`prefix_append_iff` say in which part an item stands.
-/

namespace ChunkLoading

variable {α : Type} {R : α → α → Prop} {P : α → Prop} {l before after : List α} {a b : α} {i j : Nat}

/-! ## Indexes -/

/-- The first item with a property is at an index. -/
structure FirstAt (l : List α) (P : α → Prop) (i : Nat) : Prop where
  hit : ∃ a, l[i]? = some a ∧ P a
  first : ∀ j < i, ∀ a, l[j]? = some a → ¬ P a

/-- There is one first index. -/
theorem FirstAt.unique (at_i : FirstAt l P i) (at_j : FirstAt l P j) : i = j := by
  obtain ⟨a, hit, has⟩ := at_i.hit
  obtain ⟨b, hit', has'⟩ := at_j.hit
  rcases Nat.lt_trichotomy i j with less | same | more
  · exact absurd has (at_j.first i less a hit)
  · exact same
  · exact absurd has' (at_i.first j more b hit')

theorem idxOf_le_of_getElem? [DecidableEq α] (at_j : l[j]? = some a) : l.idxOf a ≤ j := by
  induction l generalizing j with
  | nil => simp at at_j
  | cons b l ih =>
    by_cases same : b = a
    · simp [same]
    · cases j with
      | zero => exact absurd (Option.some.inj at_j) same
      | succ j =>
        have later : l.idxOf a ≤ j := ih at_j
        rw [List.idxOf_cons_ne l same]
        omega

theorem firstAt_idxOf [DecidableEq α] (member : a ∈ l) : FirstAt l (· = a) (l.idxOf a) where
  hit := ⟨a, List.getElem?_idxOf member, rfl⟩
  first := by
    rintro j before _ at_j rfl
    have := idxOf_le_of_getElem? at_j
    omega

/-! ## Lists that are filtered, joined and freed of duplicates -/

/-- What stands before the first occurrence of an item in a filtered list stands before it in the list. -/
theorem exists_split_of_filter {p : α → Bool} (split : l.filter p = before ++ a :: after)
    (first : a ∉ before) : ∃ before' after', l = before' ++ a :: after' ∧ a ∉ before' ∧
      ∀ x ∈ before, x ∈ before' := by
  obtain ⟨l₁, l₂, rfl, rfl, rest⟩ := List.filter_eq_append_iff.mp split
  obtain ⟨l₃, l₄, rfl, none, kept, -⟩ := List.filter_eq_cons_iff.mp rest
  refine ⟨l₁ ++ l₃, l₄, by rw [List.append_assoc], ?_, fun x member => ?_⟩
  · intro member
    rcases List.mem_append.mp member with member | member
    · exact first (List.mem_filter.mpr ⟨member, kept⟩)
    · exact none a member kept
  · exact List.mem_append_left _ (List.mem_filter.mp member).1

/-- If whatever stands before the first occurrence of an item is related to it, then items are related in
the order of their first occurrences. -/
theorem pairwise_eraseDups [DecidableEq α]
    (related : ∀ before a after, l = before ++ a :: after → a ∉ before → ∀ x ∈ before, R x a) :
    l.eraseDups.Pairwise R := by
  -- The duplicates of the first item are taken out of the rest, so the induction is on the length.
  induction size : l.length using Nat.strongRecOn generalizing l with
  | ind n ih =>
    subst size
    cases l with
    | nil => exact .nil
    | cons b l =>
      rw [List.eraseDups_cons, List.pairwise_cons]
      constructor
      · intro a member
        obtain ⟨member, other⟩ := List.mem_filter.mp (List.mem_eraseDups.mp member)
        obtain ⟨before, after, rfl, first⟩ := List.eq_append_cons_of_mem member
        have first : a ∉ b :: before := by simpa [first] using other
        exact related (b :: before) a after rfl first b List.mem_cons_self
      · refine ih _ (Nat.lt_succ_of_le (List.length_filter_le ..)) ?_ rfl
        intro before a after split first x member
        have kept : a ∈ l.filter (!· == b) := by simp [split]
        obtain ⟨before', after', rfl, first', earlier⟩ := exists_split_of_filter split first
        have first' : a ∉ b :: before' := by
          simpa [first'] using (List.mem_filter.mp kept).2
        exact related (b :: before') a after' rfl first' x (List.mem_cons_of_mem _ (earlier x member))

/-- Each item is kept once. -/
theorem nodup_eraseDups [DecidableEq α] (l : List α) : l.eraseDups.Nodup :=
  pairwise_eraseDups fun _ _ _ _ first _ member same => first (same ▸ member)

/-- The first occurrence of an item in joined lists is in one of the lists, and what stands before it comes
from the lists before and from the front of that list. -/
theorem exists_of_flatMap {β : Type} {f : β → List α} {ls : List β}
    (split : ls.flatMap f = before ++ b :: after) (first : b ∉ before) :
    ∃ ls₁ x ls₂ front back, ls = ls₁ ++ x :: ls₂ ∧ f x = front ++ b :: back ∧
      before = ls₁.flatMap f ++ front := by
  induction ls generalizing before with
  | nil => simp at split
  | cons x ls ih =>
    rw [List.flatMap_cons] at split
    rcases List.append_eq_append_iff.mp split with ⟨rest, rfl, tail⟩ | ⟨rest, here, tail⟩
    · -- The occurrence is in a later list.
      have first' : b ∉ rest := fun member => first (List.mem_append_right _ member)
      obtain ⟨ls₁, y, ls₂, front, back, rfl, inside, rfl⟩ := ih tail first'
      exact ⟨x :: ls₁, y, ls₂, front, back, rfl, inside, by simp⟩
    · cases rest with
      | nil =>
        -- The first list ends right before the occurrence.
        have split : ls.flatMap f = [] ++ b :: after := by simpa using tail.symm
        obtain ⟨ls₁, y, ls₂, front, back, rfl, inside, none⟩ := ih split (by simp)
        refine ⟨x :: ls₁, y, ls₂, front, back, rfl, inside, ?_⟩
        rw [List.flatMap_cons, List.append_assoc, ← none, here]
        simp
      | cons b' back =>
        obtain ⟨rfl, -⟩ := List.cons.inj tail
        exact ⟨[], x, ls, before, back, rfl, here, rfl⟩

/-! ## Lists in parts -/

variable {as bs : List α} {x : α}

/-- An item of a list in two parts is in the second part or in the first. -/
theorem append_eq_append_cons_iff : as ++ bs = before ++ x :: after ↔
    (∃ between, before = as ++ between ∧ bs = between ++ x :: after) ∨
      ∃ rest, as = before ++ x :: rest ∧ after = rest ++ bs := by
  constructor
  · intro same
    rcases List.append_eq_append_iff.mp same with ⟨between, first, second⟩ | ⟨rest, first, second⟩
    · exact .inl ⟨between, first, second⟩
    · cases rest with
      | nil => exact .inl ⟨[], by simpa using first.symm, second.symm⟩
      | cons y rest =>
        obtain ⟨rfl, tail⟩ := List.cons.inj second
        exact .inr ⟨rest, first, tail⟩
  · rintro (⟨between, rfl, rfl⟩ | ⟨rest, rfl, rfl⟩) <;> simp

/-- The front of a list in two parts ends in the first part or in the second. -/
theorem prefix_append_iff : before ++ [x] <+: as ++ bs ↔
    before ++ [x] <+: as ∨ ∃ between, before = as ++ between ∧ between ++ [x] <+: bs := by
  constructor
  · rintro ⟨after, same⟩
    have same : as ++ bs = before ++ x :: after := by simp [← same]
    rcases append_eq_append_cons_iff.mp same with ⟨between, rfl, second⟩ | ⟨rest, first, -⟩
    · exact .inr ⟨between, rfl, after, by simp [second]⟩
    · exact .inl ⟨rest, by simp [first]⟩
  · rintro (⟨after, rfl⟩ | ⟨between, rfl, after, rfl⟩)
    · exact ⟨after ++ bs, by simp⟩
    · exact ⟨after, by simp⟩

/-- The front of a list is all of it, or a front of the list without the last item. -/
theorem prefix_snoc_iff : before ++ [a] <+: as ++ [b] ↔ before ++ [a] <+: as ∨ before = as ∧ a = b := by
  rw [List.prefix_concat_iff, or_comm, List.append_singleton_inj]

theorem exists_prefix_of_mem (member : a ∈ l) : ∃ before, before ++ [a] <+: l := by
  obtain ⟨before, after, rfl⟩ := List.append_of_mem member
  exact ⟨before, after, by simp⟩

theorem eq_singleton_of_mem (member : a ∈ l) (short : l.length ≤ 1) : l = [a] := by
  have nonempty := List.length_pos_of_mem member
  obtain ⟨b, rfl⟩ := List.length_eq_one_iff.mp (by omega : l.length = 1)
  rw [List.mem_singleton.mp member]

/-- The items before the first one that does not pass a test, and those from there on. -/
theorem span_of_all {p : α → Bool} (all : ∀ a ∈ as, p a = true) (stop : p x = false) (bs : List α) :
    (as ++ x :: bs).takeWhile p = as ∧ (as ++ x :: bs).dropWhile p = x :: bs := by
  rw [List.takeWhile_append_of_pos all, List.dropWhile_append_of_pos all]
  simp [stop]

/-- A separator stands between two sequences of parts. -/
theorem intercalate_append {sep : List α} {ps qs : List (List α)} (some : ps ≠ []) (more : qs ≠ []) :
    sep.intercalate (ps ++ qs) = sep.intercalate ps ++ sep ++ sep.intercalate qs := by
  induction ps with
  | nil => exact absurd rfl some
  | cons p ps ih =>
    by_cases last : ps = []
    · subst last
      rw [List.singleton_append, List.intercalate_cons_of_ne_nil more, List.intercalate_singleton]
    · rw [List.cons_append, List.intercalate_cons_of_ne_nil (by simp [last]), ih last,
        List.intercalate_cons_of_ne_nil last]
      simp only [List.append_assoc]

theorem suffix_intercalate {sep last : List α} (init : List (List α)) :
    last <:+ sep.intercalate (init ++ [last]) := by
  by_cases none : init = []
  · subst none
    rw [List.nil_append, List.intercalate_singleton]
  · rw [intercalate_append none (List.cons_ne_nil last []), List.intercalate_singleton]
    exact List.suffix_append _ _

/-- Each part of a list that is put together with separators stands in it. -/
theorem infix_intercalate {sep part : List α} {parts : List (List α)} (member : part ∈ parts) :
    part <:+: sep.intercalate parts := by
  induction parts with
  | nil => cases member
  | cons first rest ih =>
    by_cases last : rest = []
    · subst last
      obtain rfl := List.mem_singleton.mp member
      rw [List.intercalate_singleton]
    · rw [List.intercalate_cons_of_ne_nil last]
      rcases List.mem_cons.mp member with rfl | later
      · exact ⟨[], sep ++ sep.intercalate rest, by simp⟩
      · exact (ih later).trans (List.suffix_append _ _).isInfix

/-! ## Lists of pairs -/

theorem mem_of_lookup {β : Type} [DecidableEq α] {v : β} {pairs : List (α × β)}
    (found : pairs.lookup a = some v) : (a, v) ∈ pairs := by
  obtain ⟨before, after, rfl, -⟩ := List.lookup_eq_some_iff.mp found
  simp

/-- The keys of entries that some members of a list have are keys of members. -/
theorem filterMap_keys_sublist {κ ν : Type} (key : α → κ) (f : α → Option ν) (l : List α) :
    ((l.filterMap fun a => (f a).map (key a, ·)).map (·.1)).Sublist (l.map key) := by
  induction l with
  | nil => exact .slnil
  | cons a l ih =>
    cases value : f a with
    | none => simpa [value] using ih.cons (key a)
    | some v => simpa [value] using ih.cons_cons (key a)

/-! ## Stable sorts -/

/-- Two different members of a list stand in one order or in the other. -/
theorem pair_sublist_or (one : a ∈ l) (two : b ∈ l) (other : a ≠ b) :
    [a, b].Sublist l ∨ [b, a].Sublist l := by
  induction l with
  | nil => cases one
  | cons x l ih =>
    rcases List.mem_cons.mp one with rfl | one' <;> rcases List.mem_cons.mp two with rfl | two'
    · exact absurd rfl other
    · exact .inl ((List.singleton_sublist.mpr two').cons_cons _)
    · exact .inr ((List.singleton_sublist.mpr one').cons_cons _)
    · exact (ih one' two').imp (.cons x) (.cons x)

/-- In a list without duplicates two items stand in one order. -/
theorem not_pair_sublist (once : l.Nodup) (forth : [a, b].Sublist l) : ¬ [b, a].Sublist l := by
  induction l with
  | nil => cases forth
  | cons x l ih =>
    intro back
    rw [List.nodup_cons] at once
    rw [List.sublist_cons_iff] at forth back
    rcases forth with forth | ⟨r, split, forth⟩ <;> rcases back with back | ⟨r', split', back⟩
    · exact ih once.2 forth back
    · obtain ⟨rfl, rfl⟩ := List.cons.inj split'
      exact once.1 (forth.subset (by simp))
    · obtain ⟨rfl, rfl⟩ := List.cons.inj split
      exact once.1 (back.subset (by simp))
    · obtain ⟨rfl, rfl⟩ := List.cons.inj split
      obtain ⟨rfl, rfl⟩ := List.cons.inj split'
      exact once.1 (forth.subset (by simp))

/-- A stable sort leaves equal items in the order in which they were. -/
theorem pairwise_mergeSort_stable {le : α → α → Bool}
    (trans : ∀ a b c, le a b → le b c → le a c) (total : ∀ a b, le a b || le b a)
    (once : l.Nodup) (ordered : l.Pairwise R) :
    (l.mergeSort le).Pairwise fun a b => le a b ∧ (le b a → R a b) := by
  have sorted_once : (l.mergeSort le).Nodup := (List.mergeSort_perm l le).nodup_iff.mpr once
  refine List.pairwise_iff_forall_sublist.mpr fun {a b} forth => ?_
  refine ⟨List.pairwise_iff_forall_sublist.mp (List.pairwise_mergeSort trans total l) forth, ?_⟩
  intro equal
  have member {x : α} (inside : x ∈ [a, b]) : x ∈ l :=
    (List.mergeSort_perm l le).mem_iff.mp (forth.subset inside)
  have other : a ≠ b := by
    rintro rfl
    simpa using sorted_once.sublist forth
  rcases pair_sublist_or (member (by simp)) (member (by simp)) other with before | after
  · exact List.pairwise_iff_forall_sublist.mp ordered before
  · -- Had they been the other way round, the sort would have left them so.
    exact absurd (List.pair_sublist_mergeSort trans total equal after) (not_pair_sublist sorted_once forth)

/-! ## Texts as lists of characters -/

/-- The characters of a literal: to compute them from its bytes takes long, to write them out does not. -/
theorem toList_of_chars {s : String} {cs : List Char} (chars : s = String.ofList cs) : s.toList = cs := by
  rw [chars, String.toList_ofList]

theorem toList_append_of_chars {s t : String} {cs ds : List Char} (first : s.toList = cs)
    (second : t.toList = ds) : (s ++ t).toList = cs ++ ds := by
  rw [String.toList_append, first, second]

end ChunkLoading
