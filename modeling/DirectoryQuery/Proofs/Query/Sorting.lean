import DirectoryQuery.Query.SortKey
import Mathlib.Data.List.Basic
import Mathlib.Order.Compare
import Mathlib.Tactic.Lemma

/-!
# Sorting and filtering

It makes no difference whether entries are sorted before they are filtered or after
(`SortKey.sort_filter`).  That is so because the comparison by keys is a total preorder, whatever
the values are: each comparison below it, from the one of values up, is put together
lexicographically from orders that are total.  Values and sequences of values tie only with
themselves, and entries tie when they have the same values under every key
(`SortKey.comparisons_lawful`).

A stable sort is determined by what it does to the first entry of a list, which goes behind those
that are strictly before it and in front of all others (`mergeSort_cons_eq`).
-/

namespace DirectoryQuery

open Std

/-! ## Total preorders -/

section Preorders

variable {α β : Type}

lemma transCmp_comap (f : α → β) (cmp : β → β → Ordering) [TransCmp cmp] :
    TransCmp fun a b => cmp (f a) (f b) where
  eq_swap := OrientedCmp.eq_swap
  isLE_trans := TransCmp.isLE_trans

lemma transCmp_swap (cmp : α → α → Ordering) [TransCmp cmp] :
    TransCmp fun a b => (cmp a b).swap := by
  have hswap : (fun a b => (cmp a b).swap) = fun a b => cmp b a :=
    funext₂ fun a b => OrientedCmp.eq_swap.symm
  rw [hswap]
  exact TransCmp.opposite

end Preorders

namespace Value

/-- Two values of one kind compare by content, and others by kind. -/
instance : TransCmp compare where
  eq_swap {a b} := by
    cases a <;> cases b <;> exact OrientedOrd.eq_swap
  isLE_trans {a b c} hab hbc := by
    cases a <;> cases b <;> cases c <;>
      first
      | exact TransOrd.isLE_trans hab hbc
      | rfl
      | exact absurd hab Bool.false_ne_true
      | exact absurd hbc Bool.false_ne_true

/-- What has no number comes last, then the number decides, and then the plain order. -/
lemma totalCompare_eq : totalCompare = compareLex (compareOn fun v => v.number?.isNone)
    (compareLex (compareOn fun v => v.number?.getD 0) compare) := by
  funext a b
  rw [totalCompare, compareLex, compareLex, compareOn, compareOn]
  cases a.number? with
  | none => cases b.number? <;> rfl
  | some m => cases b.number? <;> rfl

instance : TransCmp totalCompare := by
  rw [totalCompare_eq]
  infer_instance

end Value

lemma compareEach_eq : compareEach = List.compareLex Value.totalCompare := by
  funext vs ws
  induction vs generalizing ws with
  | nil => cases ws <;> rfl
  | cons v vs ih =>
    cases ws with
    | nil => rfl
    | cons w ws => rw [compareEach, List.compareLex_cons_cons, ih]

lemma compareValues_eq : compareValues = compareLex (compareOn List.isEmpty) compareEach := by
  funext vs ws
  cases vs <;> cases ws <;> rfl

instance : TransCmp compareValues := by
  rw [compareValues_eq, compareEach_eq]
  infer_instance

namespace SortKey

instance (k : SortKey) : TransCmp k.compare := by
  have hget := transCmp_comap (fun e : Entry => e.get k.name) compareValues
  unfold compare
  cases k.descending with
  | true => exact transCmp_swap _
  | false => exact hget

instance (keys : List SortKey) : TransCmp (compareBy keys) := by
  induction keys with
  | nil => exact transCmp_comap (fun _ : Entry => ()) Ord.compare
  | cons k keys ih => exact inferInstanceAs (TransCmp (compareLex k.compare (compareBy keys)))

end SortKey

/-! ## Ties -/

section Ties

variable {α : Type}

/-- What decides between ties of another comparison tells apart all that it does on its own. -/
lemma lawfulEqCmp_compareLex (first second : α → α → Ordering) [ReflCmp first]
    [LawfulEqCmp second] : LawfulEqCmp (compareLex first second) where
  compare_self := by
    intro a
    exact Ordering.then_eq_eq.2 ⟨ReflCmp.compare_self, ReflCmp.compare_self⟩
  eq_of_compare := by
    intro a b h
    exact LawfulEqCmp.eq_of_compare (Ordering.then_eq_eq.1 h).2

end Ties

namespace Value

instance : LawfulEqCmp compare where
  compare_self := by
    intro a
    exact ReflCmp.compare_self
  eq_of_compare := by
    intro a b h
    cases a <;> cases b
    case bool.bool => exact congrArg bool (LawfulEqOrd.eq_of_compare h)
    case int.int => exact congrArg int (LawfulEqOrd.eq_of_compare h)
    case text.text => exact congrArg text (LawfulEqOrd.eq_of_compare h)
    case bytes.bytes => exact congrArg bytes (LawfulEqOrd.eq_of_compare h)
    -- the ranks of two kinds differ
    all_goals cases h

instance : LawfulEqCmp totalCompare := by
  rw [totalCompare_eq]
  have hnumbers := lawfulEqCmp_compareLex (compareOn fun v : Value => v.number?.getD 0) compare
  exact lawfulEqCmp_compareLex _ _

end Value

instance : LawfulEqCmp compareValues := by
  rw [compareValues_eq, compareEach_eq]
  exact lawfulEqCmp_compareLex _ _

namespace SortKey

variable {k : SortKey} {keys : List SortKey} {a b : Entry}

lemma compare_eq_iff : k.compare a b = .eq ↔ a.get k.name = b.get k.name := by
  have hvalues (vs ws : List Value) : compareValues vs ws = .eq ↔ vs = ws :=
    LawfulEqCmp.compare_eq_iff_eq
  rw [← hvalues, compare]
  split_ifs
  · exact Ordering.swap_eq_eq
  · exact Iff.rfl

lemma compareBy_eq_iff :
    compareBy keys a b = .eq ↔ ∀ k ∈ keys, a.get k.name = b.get k.name := by
  induction keys with
  | nil => exact iff_of_true rfl (List.forall_mem_nil _)
  | cons k keys ih => rw [compareBy, Ordering.then_eq_eq, List.forall_mem_cons, compare_eq_iff, ih]

/-- Values and sequences of values are totally ordered, with equality for the one tie and no values
at the end.  Entries are totally preordered by every list of keys, and they tie if and only if they
have the same values under each key. -/
theorem comparisons_lawful :
    (TransCmp Value.totalCompare ∧ LawfulEqCmp Value.totalCompare) ∧
    (TransCmp compareValues ∧ LawfulEqCmp compareValues ∧
      ∀ v vs, compareValues (v :: vs) [] = .lt) ∧
    ∀ keys, TransCmp (compareBy keys) ∧
      ∀ a b, compareBy keys a b = .eq ↔ ∀ k ∈ keys, a.get k.name = b.get k.name :=
  ⟨⟨inferInstance, inferInstance⟩, ⟨inferInstance, inferInstance, fun _ _ => rfl⟩,
    fun _ => ⟨inferInstance, fun _ _ => compareBy_eq_iff⟩⟩

end SortKey

/-! ## Stable sorting -/

section Sorting

variable {α : Type} {le : α → α → Bool} (htrans : ∀ a b c, le a b → le b c → le a c)
  (htotal : ∀ a b, le a b || le b a)
include htrans htotal

lemma mergeSort_cons_eq (a : α) (as : List α) :
    (a :: as).mergeSort le =
      (as.mergeSort le).filter (fun b => !le a b) ++ a :: (as.mergeSort le).filter (le a) := by
  obtain ⟨before, behind, hcons, has, hbefore⟩ := List.mergeSort_cons htrans htotal a as
  have hsorted := List.pairwise_mergeSort htrans htotal (a :: as)
  rw [hcons] at hsorted
  have hbehind : ∀ b ∈ behind, le a b = true :=
    (List.pairwise_cons.1 (List.pairwise_append.1 hsorted).2.1).1
  have hnone : behind.filter (fun b => !le a b) = [] :=
    List.filter_eq_nil_iff.2 fun b hb => by simp [hbehind b hb]
  have hnone' : before.filter (le a) = [] :=
    List.filter_eq_nil_iff.2 fun b hb => by simpa using hbefore b hb
  rw [hcons, has, List.filter_append, List.filter_append, hnone, hnone', List.append_nil,
    List.nil_append, List.filter_eq_self.2 hbefore, List.filter_eq_self.2 hbehind]

/-- Sorting what is left over leaves over what was sorted. -/
lemma mergeSort_filter (p : α → Bool) (as : List α) :
    (as.filter p).mergeSort le = (as.mergeSort le).filter p := by
  induction as with
  | nil => simp
  | cons a as ih =>
    by_cases ha : p a
    · rw [List.filter_cons_of_pos ha, mergeSort_cons_eq htrans htotal, ih,
        mergeSort_cons_eq htrans htotal, List.filter_append, List.filter_cons_of_pos ha,
        List.filter_comm, List.filter_comm (le a)]
    · obtain ⟨before, behind, hcons, has, -⟩ := List.mergeSort_cons htrans htotal a as
      rw [List.filter_cons_of_neg ha, ih, hcons, has, List.filter_append, List.filter_append,
        List.filter_cons_of_neg ha]

end Sorting

namespace SortKey

variable (keys : List SortKey)

lemma isLE_compareBy_trans (a b c : Entry) (hab : (compareBy keys a b).isLE = true)
    (hbc : (compareBy keys b c).isLE = true) : (compareBy keys a c).isLE = true :=
  TransCmp.isLE_trans hab hbc

lemma isLE_compareBy_total (a b : Entry) :
    ((compareBy keys a b).isLE || (compareBy keys b a).isLE) = true := by
  have hswap : compareBy keys b a = (compareBy keys a b).swap := OrientedCmp.eq_swap
  rw [hswap]
  cases compareBy keys a b <;> rfl

/-- Entries are in the same order whether they are filtered before they are sorted or after. -/
theorem sort_filter (p : Entry → Bool) (es : List Entry) :
    sort keys (es.filter p) = (sort keys es).filter p :=
  mergeSort_filter (isLE_compareBy_trans keys) (isLE_compareBy_total keys) p es

lemma pairwise_sort (es : List Entry) :
    (sort keys es).Pairwise fun a b => (compareBy keys a b).isLE = true :=
  List.pairwise_mergeSort (isLE_compareBy_trans keys) (isLE_compareBy_total keys) es

end SortKey

end DirectoryQuery
