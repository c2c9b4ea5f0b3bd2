import LayerChain.Files.Path
import Mathlib.Data.List.TakeWhile
import Mathlib.Tactic.Common

/-!
# Laws of paths

Taking a path apart and putting its names together are inverse to each other
(`Path.ofNames_names`, `Path.names_ofNames`). The directory that a path stands in is the path of
some of its first names; the names that are left out between it and the last one mean that
directory itself (`Path.exists_trimEnd`).
-/

namespace LayerChain.Path

/-! ## Taking apart and putting together -/

lemma split_eq_splitOn (cs : List Char) : split cs = cs.splitOn '/' := by
  induction cs with
  | nil => rfl
  | cons c cs ih =>
    rw [split, List.splitOn_cons_eq_if_modifyHead, ih]
    by_cases hc : c = '/'
    · simp [hc]
    · rw [if_neg hc, if_neg (by simp [hc])]
      cases hs : cs.splitOn '/' with
      | nil => exact absurd hs (List.splitOn_ne_nil _ _)
      | cons name names => rfl

lemma names_ne_nil (path : String) : names path ≠ [] := by
  rw [names, split_eq_splitOn]
  simp

/-- The names of a path make the path. -/
@[simp] theorem ofNames_names (path : String) : ofNames (names path) = path := by
  apply String.toList_inj.1
  rw [ofNames, names, split_eq_splitOn, String.toList_intercalate, List.map_map]
  have hid : (String.toList ∘ String.ofList) = id := by
    funext cs
    simp
  rw [hid, List.map_id]
  exact List.intercalate_splitOn '/'

/-- Names without slashes are the names of the path that they make. -/
theorem names_ofNames {ns : List String} (hne : ns ≠ []) (h : ∀ n ∈ ns, '/' ∉ n.toList) :
    names (ofNames ns) = ns := by
  have hsplit : (['/'].intercalate (ns.map String.toList)).splitOn '/' = ns.map String.toList := by
    apply List.splitOn_intercalate
    · simpa using h
    · simpa using hne
  rw [names, split_eq_splitOn, ofNames, String.toList_intercalate]
  show ((['/'].intercalate (ns.map String.toList)).splitOn '/').map String.ofList = ns
  rw [hsplit]
  simp

lemma slash_not_mem_of_mem_split {cs name : List Char} (h : name ∈ split cs) : '/' ∉ name := by
  induction cs generalizing name with
  | nil =>
    rw [List.mem_singleton.1 h]
    simp
  | cons c cs ih =>
    rw [split] at h
    split_ifs at h with hc
    · rcases List.mem_cons.1 h with rfl | h
      · simp
      · exact ih h
    · cases hs : split cs with
      | nil =>
        rw [hs] at h
        rw [List.mem_singleton.1 h]
        simpa using Ne.symm hc
      | cons first names =>
        rw [hs] at h ih
        rcases List.mem_cons.1 h with rfl | h
        · have hfirst := ih List.mem_cons_self
          simpa [hfirst] using Ne.symm hc
        · exact ih (List.mem_cons_of_mem _ h)

lemma slash_not_mem_of_mem_names {path name : String} (h : name ∈ names path) :
    '/' ∉ name.toList := by
  obtain ⟨cs, hcs, rfl⟩ := List.mem_map.1 h
  simpa using slash_not_mem_of_mem_split hcs

/-- A slash at the end of a path leaves an empty name at the end. -/
lemma getLast?_names_of_slash {path : String} (h : path.toList.getLast? = some '/') :
    (names path).getLast? = some "" := by
  obtain ⟨cs, hcs⟩ := List.getLast?_eq_some_iff.1 h
  rw [names, hcs, split_eq_splitOn, List.splitOn_append_cons_self]
  simp

/-- An empty name at the end stands behind a slash, unless nothing stands before it. -/
lemma slash_of_getLast?_names {path : String} (hne : path ≠ "")
    (h : (names path).getLast? = some "") : path.toList.getLast? = some '/' := by
  obtain ⟨init, hinit⟩ := List.getLast?_eq_some_iff.1 h
  have hpath : path = ofNames (init ++ [""]) := by rw [← hinit, ofNames_names]
  cases init with
  | nil => exact absurd hpath hne
  | cons first init =>
    rw [hpath, ofNames, String.intercalate_append_of_ne_nil (by simp) (by simp)]
    simp

/-! ## Trimming -/

/-- What is trimmed off some names means the directory itself; what is left starts with the same
name, and its last name means another place, unless it is the only one. -/
lemma exists_trimEnd (first : String) (ns : List String) :
    ∃ kept selfs, trimEnd (first :: ns) = first :: kept ∧ ns = kept ++ selfs ∧
      (∀ n ∈ selfs, isSelf n) ∧ ∀ n ∈ kept.getLast?, isSelf n = false := by
  refine ⟨(ns.reverse.dropWhile isSelf).reverse, (ns.reverse.takeWhile isSelf).reverse, rfl, ?_, ?_,
    ?_⟩
  · rw [← List.reverse_append, List.takeWhile_append_dropWhile, List.reverse_reverse]
  · intro n hn
    exact List.mem_takeWhile_imp (List.mem_reverse.1 hn)
  · intro n hn
    rw [List.getLast?_reverse] at hn
    have := List.head?_dropWhile_not isSelf ns.reverse
    rw [hn] at this
    simpa using this

end LayerChain.Path
