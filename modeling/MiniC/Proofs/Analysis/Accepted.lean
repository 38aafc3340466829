import MiniC.Proofs.Grammar.Depth
import MiniC.Proofs.Rendering.Nesting

/-!
# Programs that are accepted

What every program of an analysis satisfies, whatever the source (`composed_and_depth_le`): it is
composed over the literals in range, and no path from its root down meets more minuses and blocks
than there may be levels. The first is owed to the scanner as well, since it depends on which names
and values tokens have; a whole number in range is one that is not negative, and its type leaves
room for no more than `2 ^ 63 - 1`. The second is owed to the derivation, which has a level for each
of the nodes.
-/

namespace MiniC

variable {dialect : Dialect} {unit : Option String} {source : String} {program : Program}

/-- A program that is read has no more minuses and blocks on a path than there may be levels. -/
theorem depth_le_of_parse {tokens : List Token} (h : parse dialect unit tokens = .ok program) :
    program.depth .levels ≤ maxNesting := by
  obtain ⟨n, hn, hprogram⟩ := isProgram_of_parse h
  calc program.depth .levels
    _ ≤ 1 * n := hprogram.depth_le (fun _ => Nat.le_refl 1) (Nat.le_refl 1)
    _ ≤ maxNesting := by rwa [Nat.one_mul]

/-- **Accepted programs.** The program of an analysis has names where names belong, values in the
range of the literals, no empty declaration or case group, a minus only where the dialect has one,
and never more than `maxNesting` minuses and blocks on a path. -/
theorem composed_and_depth_le (h : (analyze dialect unit source).program = some program) :
    program.Composed dialect Literal.InRange ∧ program.depth .levels ≤ maxNesting := by
  have hparse := parse_of_analyze h
  obtain ⟨n, -, hprogram⟩ := isProgram_of_parse hparse
  exact ⟨hprogram.composed fun t ht => isOver_of_mem_tokenize ht, depth_le_of_parse hparse⟩

/-- A program with a minus in a declaration and a block under a condition. -/
theorem composed_and_depth_le_sample :
    (analyze {} none Program.sample.render).program = some Program.sample ∧
      Program.sample.Composed {} Literal.InRange ∧
      Program.sample.depth .levels ≤ maxNesting := by
  have hprogram : (analyze {} none Program.sample.render).program = some Program.sample := by
    obtain ⟨ts, heq⟩ := Program.wellFormed_sample.analyze_eq (by decide) none
    rw [heq]
  exact ⟨hprogram, composed_and_depth_le hprogram⟩

end MiniC
