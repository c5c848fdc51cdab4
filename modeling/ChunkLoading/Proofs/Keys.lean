import ChunkLoading.Proofs.Addresses
import Mathlib.Data.List.Forall2

/-!
# Chunk ids as keys

In emitted tables and on the command line a chunk goes by the text of its id. In a valid graph no two
chunks share one, so that the text finds the chunk, and a runtime that is asked for by it, as a number or as
a name, is that of the chunk (`Graph.keys_exact`).
-/

namespace ChunkLoading.Graph

variable {g : Graph} {config : Config} {asked asked' c : ChunkId}

/-- Only the text of an id that is asked for counts, if a chunk has it. -/
theorem generate_eq_of_text (found : g.resolve? asked.text = some c) (same : asked'.text = asked.text) :
    g.generate config asked' = g.generate config asked := by
  unfold generate
  simp only [same, found]

/-- A chunk that is found is not reported as unknown. -/
theorem generate_ne_unknownChunk (found : g.resolve? asked.text = some c) (other : ChunkId) :
    g.generate config asked ≠ .error (.unknownChunk other) := by
  intro failed
  unfold generate at failed
  simp only [found] at failed
  split at failed
  · cases failed
  · split at failed
    · cases sections : g.sections config c (g.featuresOf config c) <;> rw [sections] at failed <;>
        cases failed
    · cases failed

/-- What is emitted is the runtime of the chunk that is found. -/
theorem isRuntimeOf_of_resolve {r : GeneratedRuntime} (found : g.resolve? asked.text = some c)
    (emitted : g.generate config asked = .ok r) : g.IsRuntimeOf config c r := by
  obtain ⟨own, runtime⟩ := isRuntimeOf_of_generate emitted
  obtain rfl := Option.some.inj (found.symm.trans own)
  exact runtime

/-- **Chunk ids as keys.** A graph passes the checks exactly if it is valid: the texts of its chunk ids are
pairwise different, and so are the ids of its groups, each chunk that a group lists is a chunk of the graph
by its very id, and each child and each target of a block is a group of the graph. Take any graph that
passes. A number and its numeral are not both ids of its chunks. The text of each of its chunk ids finds
that id; asked for an id of that text, be it a number or a name, the generator does the same as for the
chunk's own id: it does not take the chunk for unknown, and the runtime that it gives, if any, is that of
the chunk. If all runtimes are generated, there is one for each chunk, in the order of the graph. -/
theorem keys_exact (g : Graph) :
    (g.validate = .ok () ↔ g.Valid) ∧
    (g.validate = .ok () →
      (∀ n, ¬ (.number n ∈ g.chunks.map (·.id) ∧ .name (Id.number n).text ∈ g.chunks.map (·.id))) ∧
      (∀ c ∈ g.chunks.map (·.id), g.resolve? c.text = some c ∧
        ∀ config asked, asked.text = c.text →
          g.generate config asked = g.generate config c ∧
          (∀ other, g.generate config asked ≠ .error (.unknownChunk other)) ∧
          ∀ r, g.generate config asked = .ok r → g.IsRuntimeOf config c r) ∧
      ∀ config rs, g.generateAll config = .ok rs →
        List.Forall₂ (fun chunk r => g.IsRuntimeOf config chunk.id r) g.chunks rs) := by
  refine ⟨validate_ok, fun passed => ?_⟩
  have valid := validate_ok.mp passed
  refine ⟨?_, ?_, ?_⟩
  · rintro n ⟨number, name⟩
    exact Id.noConfusion (valid.text_inj number name rfl)
  · intro c known
    have found := valid.resolve known
    refine ⟨found, fun config asked same => ?_⟩
    rw [generate_eq_of_text found same]
    exact ⟨rfl, generate_ne_unknownChunk found, fun r => isRuntimeOf_of_resolve found⟩
  · intro config rs all
    have known : ∀ chunk ∈ g.chunks, g.resolve? chunk.id.text = some chunk.id :=
      fun chunk member => valid.resolve (List.mem_map_of_mem member)
    have each := mapM_ok_iff.mp all
    refine ((List.forall₂_and_left _ _).mpr ⟨known, each⟩).imp ?_
    rintro chunk r ⟨found, emitted⟩
    exact isRuntimeOf_of_resolve found emitted

end ChunkLoading.Graph

namespace ChunkLoading

/-- A build whose chunks have a number, a numeral, and a numeral that is not how its number is written. -/
def numeralBuild : Graph where
  hash := none
  chunks := [⟨.number 7, none, [], none⟩, ⟨.name "8", none, [], none⟩, ⟨.name "07", none, [], none⟩]
  groups := [⟨"g", .entry, [.number 7, .name "8"], ["h"], none, none, none⟩,
    ⟨"h", .async, [.name "07"], [], none, none, none⟩]
  blocks := []

theorem keys_exact_numerals : numeralBuild.validate = .ok () ∧
    (∀ config, numeralBuild.generate config (.name "7") = numeralBuild.generate config (.number 7)) ∧
    (∀ config, numeralBuild.generate config (.number 8) = numeralBuild.generate config (.name "8")) ∧
    numeralBuild.resolve? "07" = some (.name "07") := by
  have passed : numeralBuild.validate = .ok () := by decide
  obtain ⟨-, keys⟩ := Graph.keys_exact numeralBuild
  obtain ⟨-, own, -⟩ := keys passed
  refine ⟨passed, fun config => ?_, fun config => ?_, (own (.name "07") (by decide)).1⟩
  · exact ((own (.number 7) (by decide)).2 config (.name "7") (by decide)).1
  · exact ((own (.name "8") (by decide)).2 config (.number 8) (by decide)).1

end ChunkLoading
