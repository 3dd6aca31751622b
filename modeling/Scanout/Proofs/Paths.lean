import Mathlib.Data.List.TakeWhile
import Scanout.Files.Path

/-!
# Paths and their parts

`Path.split` and `Path.ofParts` invert each other (`Path.split_ofParts`,
`Path.ofParts_split`), so a path is known by its parts: whether it starts at the
root (`Path.isAbsolute_iff`), what stands at its end (`Path.last_of_split`), and
in which directory it makes an entry (`Path.directory_of_split`).
-/

namespace Scanout

/-! ## Splitting and joining -/

namespace Text

variable {separator : Char} {cs : List Char}

theorem split_eq_splitOn (separator : Char) (cs : List Char) :
    split separator cs = cs.splitOn separator := by
  induction cs with
  | nil => rfl
  | cons c cs ih =>
      rw [split, List.splitOn, List.splitOnP_cons_eq_if_modifyHead, ← List.splitOn, ← ih]
      cases hcs : split separator cs with
      | nil => exact absurd hcs (split_ne_nil separator cs)
      | cons part parts => simp

theorem notMem_of_mem_split {part : List Char} (h : part ∈ split separator cs) :
    separator ∉ part := by
  induction cs generalizing part with
  | nil =>
      rw [List.mem_singleton.mp h]
      exact List.not_mem_nil
  | cons c cs ih =>
      rw [split] at h
      split at h
      · rcases List.mem_cons.mp h with rfl | h
        · exact List.not_mem_nil
        · exact ih h
      · rename_i hc
        cases hcs : split separator cs with
        | nil => exact absurd hcs (split_ne_nil separator cs)
        | cons first parts =>
            rw [hcs] at h ih
            rcases List.mem_cons.mp h with rfl | h
            · intro hmem
              rcases List.mem_cons.mp hmem with heq | hmem
              · exact hc heq.symm
              · exact ih List.mem_cons_self hmem
            · exact ih (List.mem_cons_of_mem first h)

/-- A text starts with a separator if and only if its first part is empty and
there are more. -/
theorem head?_eq_separator_iff :
    cs.head? = some separator ↔ ∃ part parts, split separator cs = [] :: part :: parts := by
  cases cs with
  | nil => simp [split]
  | cons c cs =>
      rw [split, List.head?_cons, Option.some.injEq]
      cases hcs : split separator cs with
      | nil => exact absurd hcs (split_ne_nil separator cs)
      | cons part parts =>
          by_cases hc : c = separator
          · rw [if_pos hc]
            exact ⟨fun _ => ⟨part, parts, rfl⟩, fun _ => hc⟩
          · simp [hc]

end Text

namespace Path

variable {path first name : String} {parts : List String}

theorem split_ofParts (hne : parts ≠ []) (h : ∀ part ∈ parts, '/' ∉ part.toList) :
    split (ofParts parts) = parts := by
  have hsplit : Text.split '/' (ofParts parts).toList = parts.map String.toList := by
    rw [ofParts, String.toList_intercalate, Text.split_eq_splitOn]
    refine List.splitOn_intercalate '/' ?_ (List.map_eq_nil_iff.not.mpr hne)
    intro cs hcs
    obtain ⟨part, hpart, rfl⟩ := List.mem_map.mp hcs
    exact h part hpart
  rw [split, hsplit, List.map_map]
  exact (List.map_congr_left fun part _ => String.ofList_toList).trans (List.map_id parts)

theorem ofParts_split (path : String) : ofParts (split path) = path := by
  have htexts : (split path).map String.toList = Text.split '/' path.toList := by
    rw [split, List.map_map]
    exact (List.map_congr_left fun cs _ => String.toList_ofList).trans (List.map_id _)
  rw [← String.toList_inj, ofParts, String.toList_intercalate, htexts, Text.split_eq_splitOn]
  exact List.intercalate_splitOn '/'

theorem notMem_of_mem_split {part : String} (h : part ∈ split path) : '/' ∉ part.toList := by
  obtain ⟨cs, hcs, rfl⟩ := List.mem_map.mp h
  rw [String.toList_ofList]
  exact Text.notMem_of_mem_split hcs

/-- A path starts at the root if and only if nothing stands before its first slash. -/
theorem isAbsolute_iff :
    isAbsolute path = true ↔ ∃ part parts, split path = "" :: part :: parts := by
  rw [isAbsolute, beq_iff_eq, Text.head?_eq_separator_iff]
  constructor
  · rintro ⟨part, parts, h⟩
    exact ⟨String.ofList part, parts.map String.ofList, by rw [split, h]; rfl⟩
  · rintro ⟨part, parts, h⟩
    cases hcs : Text.split '/' path.toList with
    | nil => exact absurd hcs (Text.split_ne_nil _ _)
    | cons cs rest =>
        rw [split, hcs, List.map_cons, List.cons.injEq] at h
        obtain ⟨hfirst, hrest⟩ := h
        cases rest with
        | nil => cases hrest
        | cons next rest => exact ⟨next, rest, by rw [String.ofList_eq_empty_iff.mp hfirst]⟩

/-! ## The end of a path -/

/-- A path of several parts ends in the last. -/
theorem exists_append_of_split (h : split path = parts ++ [name]) :
    ∃ before, path = before ++ name := by
  rw [← ofParts_split path, h, ofParts]
  cases parts with
  | nil => exact ⟨"", rfl⟩
  | cons part parts =>
      rw [String.intercalate_append_of_ne_nil (List.cons_ne_nil _ _) (List.cons_ne_nil _ _),
        String.intercalate_singleton]
      exact ⟨_, rfl⟩

theorem endsInSlash_of_split (h : split path = parts ++ [name]) (hname : name ≠ "") :
    endsInSlash path = false := by
  obtain ⟨before, rfl⟩ := exists_append_of_split h
  have hmem : '/' ∉ name.toList :=
    notMem_of_mem_split (h ▸ List.mem_append_right parts List.mem_cons_self)
  have hne : name.toList ≠ [] := mt String.toList_eq_nil_iff.mp hname
  rw [endsInSlash, String.toList_append, List.getLast?_append, List.getLast?_eq_some_getLast hne,
    Option.some_or]
  rw [beq_eq_false_iff_ne, Ne, Option.some.injEq]
  intro hslash
  exact hmem (hslash ▸ List.getLast_mem hne)

theorem last_of_split (h : split path = parts ++ [name]) (hname : isHere name = false)
    (habove : name ≠ "..") :
    last path = (parts, .name name) := by
  obtain ⟨hempty, hdot⟩ : name ≠ "" ∧ name ≠ "." := by simpa [isHere] using hname
  rw [last, h, List.reverse_append, List.reverse_singleton, List.singleton_append,
    List.dropWhile_cons_of_neg (by simpa using hempty)]
  dsimp only
  rw [List.reverse_reverse, Last.ofPart, if_neg hdot, if_neg habove]

/-! ## The directory of a path -/

theorem exists_trimmed (parts : List String) :
    ∃ rest, parts = trimmed parts ++ rest ∧ ∀ part ∈ rest, isHere part = true := by
  refine ⟨(parts.reverse.takeWhile isHere).reverse, ?_, ?_⟩
  · rw [trimmed, ← List.reverse_append, List.takeWhile_append_dropWhile, List.reverse_reverse]
  · intro part hpart
    exact List.mem_takeWhile_imp (List.mem_reverse.mp hpart)

theorem trimmed_concat (hname : isHere name = false) :
    trimmed (parts ++ [name]) = parts ++ [name] := by
  rw [trimmed, List.reverse_append, List.reverse_singleton, List.singleton_append,
    List.dropWhile_cons_of_neg (by simp [hname]), List.reverse_cons, List.reverse_reverse]

theorem directory_of_single (h : split path = [name]) (hname : isHere name = false) :
    directory path = "." := by
  have hne : name ≠ "" := by
    rintro rfl
    cases hname
  rw [directory, parent?, h]
  simp [trimmed, hne]

theorem parent?_of_split (h : split path = first :: (parts ++ [name]))
    (hname : isHere name = false) :
    parent? path
      = some (if first = "" ∧ trimmed parts = [] then "/"
          else ofParts (first :: trimmed parts)) := by
  obtain ⟨part, rest, hparts⟩ := List.exists_cons_of_ne_nil (List.concat_ne_nil name parts)
  rw [parent?, h]
  dsimp only
  rw [trimmed_concat hname, hparts]
  dsimp only
  rw [← hparts, List.dropLast_concat]
  split
  · rename_i htrimmed
    rw [if_pos ⟨rfl, htrimmed⟩]
  · rename_i hroot
    rw [if_neg fun h => hroot h.1 h.2]

/-- The directory of a path in several parts is the root, or the path of the
parts before its last, without those at the end that name the directory they
stand in. -/
theorem directory_of_split (h : split path = first :: (parts ++ [name]))
    (hname : isHere name = false) :
    (first = "" ∧ trimmed parts = [] ∧ directory path = "/")
      ∨ ((first = "" → trimmed parts ≠ []) ∧ directory path = ofParts (first :: trimmed parts)
        ∧ split (directory path) = first :: trimmed parts) := by
  by_cases hroot : first = "" ∧ trimmed parts = []
  · refine .inl ⟨hroot.1, hroot.2, ?_⟩
    rw [directory, parent?_of_split h hname, if_pos hroot]
    rfl
  · have hsplit : split (ofParts (first :: trimmed parts)) = first :: trimmed parts := by
      refine split_ofParts (List.cons_ne_nil _ _) ?_
      intro part hpart
      obtain ⟨rest, hrest, -⟩ := exists_trimmed parts
      have hmem : part ∈ split path := by
        rw [h, hrest]
        rcases List.mem_cons.mp hpart with rfl | hpart
        · exact List.mem_cons_self
        · exact List.mem_cons_of_mem first (List.mem_append_left _ (List.mem_append_left _ hpart))
      exact notMem_of_mem_split hmem
    have hne : ofParts (first :: trimmed parts) ≠ "" := by
      intro hempty
      rw [hempty, show split "" = [""] from rfl] at hsplit
      exact hroot ⟨(List.cons.inj hsplit).1.symm, (List.cons.inj hsplit).2.symm⟩
    have hdirectory : directory path = ofParts (first :: trimmed parts) := by
      rw [directory, parent?_of_split h hname, if_neg hroot]
      exact if_neg hne
    refine .inr ⟨fun hfirst htrimmed => hroot ⟨hfirst, htrimmed⟩, hdirectory, ?_⟩
    rw [hdirectory, hsplit]

theorem directory_ne_empty (path : String) : directory path ≠ "" := by
  unfold directory
  split
  · decide
  · split
    · decide
    · assumption

/-! ## One path after the other -/

theorem exists_append_of_join (directory path : String) :
    ∃ before, join directory path = before ++ path := by
  unfold join
  split
  · exact ⟨"", String.empty_append.symm⟩
  · split
    · exact ⟨directory, rfl⟩
    · exact ⟨directory ++ "/", rfl⟩

theorem exists_join_of_relative (directory : String) {path : String} (h : isAbsolute path = false) :
    ∃ after, join directory path = directory ++ after := by
  rw [join, h, if_neg Bool.false_ne_true]
  split
  · exact ⟨path, rfl⟩
  · exact ⟨"/" ++ path, String.append_assoc⟩

theorem utf8ByteSize_le_join (directory : String) {path : String} (h : isAbsolute path = false) :
    directory.utf8ByteSize + path.utf8ByteSize ≤ (join directory path).utf8ByteSize := by
  rw [join, h, if_neg Bool.false_ne_true]
  split
  · rw [String.utf8ByteSize_append]
  · rw [String.utf8ByteSize_append, String.utf8ByteSize_append]
    omega

end Path

end Scanout
