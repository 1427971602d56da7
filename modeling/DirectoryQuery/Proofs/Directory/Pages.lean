import DirectoryQuery.Proofs.Directory.Paging

/-!
# The pages of a search

The results of a search cut into pages (`Session.pagesOf`): no page but the first is empty, there
are as many as it takes, and together they are the results.  A session hands out one of them after
the other (`Session.deliver_pages`).
-/

namespace DirectoryQuery

namespace Session

/-- The pages in which results are handed out. -/
def pagesOf (size : Nat) (results : List Entry) : List (List Entry) :=
  if 0 < size ∧ size < results.length then results.take size :: pagesOf size (results.drop size)
  else [results]
termination_by results.length
decreasing_by
  rw [List.length_drop]
  omega

lemma pagesOf_nil (size : Nat) : pagesOf size [] = [[]] := by
  rw [pagesOf, if_neg (by simp)]

lemma flatten_pagesOf (size : Nat) (results : List Entry) :
    (pagesOf size results).flatten = results := by
  induction results using pagesOf.induct size with
  | case1 results h ih =>
    rw [pagesOf, if_pos h, List.flatten_cons, ih, List.take_append_drop]
  | case2 results h =>
    rw [pagesOf, if_neg h, List.flatten_cons, List.flatten_nil, List.append_nil]

/-- There is one page at least, and with a page size as many as it takes. -/
lemma length_pagesOf (size : Nat) (results : List Entry) :
    (pagesOf size results).length = max 1 ((results.length + size - 1) / size) := by
  induction results using pagesOf.induct size with
  | case1 results h ih =>
    obtain ⟨hsize, hlength⟩ := h
    have hrest : results.length + size - 1 = (results.length - size + size - 1) + size := by omega
    have hmore : 1 ≤ (results.length - size + size - 1) / size :=
      (Nat.le_div_iff_mul_le hsize).2 (by omega)
    rw [pagesOf, if_pos ⟨hsize, hlength⟩, List.length_cons, ih, List.length_drop, hrest,
      Nat.add_div_right _ hsize]
    omega
  | case2 results h =>
    rw [pagesOf, if_neg h, List.length_singleton]
    rcases Nat.eq_zero_or_pos size with rfl | hsize
    · rw [Nat.div_zero]
      rfl
    · have hlength : results.length ≤ size := by omega
      have hone : (results.length + size - 1) / size < 2 :=
        (Nat.div_lt_iff_lt_mul hsize).2 (by omega)
      omega

lemma ne_nil_of_mem_pagesOf {size : Nat} {results page : List Entry} (hresults : results ≠ [])
    (h : page ∈ pagesOf size results) : page ≠ [] := by
  induction results using pagesOf.induct size with
  | case1 results hsize ih =>
    rw [pagesOf, if_pos hsize] at h
    obtain rfl | h := List.mem_cons.1 h
    · intro hnil
      have hlength := congrArg List.length hnil
      rw [List.length_take, List.length_nil] at hlength
      omega
    · refine ih (fun hnil => ?_) h
      have hlength := congrArg List.length hnil
      rw [List.length_drop, List.length_nil] at hlength
      omega
  | case2 results hsize =>
    rw [pagesOf, if_neg hsize] at h
    rwa [List.mem_singleton.1 h]

/-- No page but the first can be empty. -/
lemma ne_nil_of_mem_tail_pagesOf {size : Nat} {results page : List Entry}
    (h : page ∈ (pagesOf size results).tail) : page ≠ [] := by
  rw [pagesOf] at h
  split at h
  · rename_i hsize
    refine ne_nil_of_mem_pagesOf (fun hnil => ?_) h
    have hlength := congrArg List.length hnil
    rw [List.length_drop, List.length_nil] at hlength
    omega
  · cases h

/-- What is handed out from a position on is the next page, and a cookie tells where the pages
behind it begin. -/
lemma deliver_pages {s s' : Session} {size search position : Nat} {results : List Entry}
    {page : Page} (h : s.deliver size search results position = (page, s')) :
    page.entries = results.drop position ∧ page.cookie = none ∧
        pagesOf size (results.drop position) = [page.entries] ∨
      ∃ next, position < next ∧ next < results.length ∧ s' = s ∧
        page.entries = (results.take next).drop position ∧
        page.cookie = some (.encode search next) ∧
        pagesOf size (results.drop position) =
          page.entries :: pagesOf size (results.drop next) := by
  by_cases hmore : pageEnd size results.length position < results.length
  · refine .inr ?_
    obtain ⟨hsize, hend⟩ := pageEnd_of_lt hmore
    rw [deliver, if_pos hmore, hend] at h
    rw [hend] at hmore
    cases h
    have hpages : 0 < size ∧ size < (results.drop position).length := by
      rw [List.length_drop]
      omega
    refine ⟨position + size, by omega, hmore, rfl, rfl, rfl, ?_⟩
    rw [pagesOf, if_pos hpages, List.drop_drop, List.drop_take, Nat.add_sub_cancel_left]
  · refine .inl ?_
    rw [deliver, if_neg hmore] at h
    cases h
    have hpages : ¬(0 < size ∧ size < (results.drop position).length) := by
      unfold pageEnd at hmore
      rw [List.length_drop]
      split at hmore <;> omega
    have hall : (results.take (pageEnd size results.length position)).drop position =
        results.drop position := by
      rw [List.take_of_length_le (by omega)]
    refine ⟨hall, rfl, ?_⟩
    rw [pagesOf, if_neg hpages, hall]

end Session

end DirectoryQuery
