/-
# No artifact is the beginning of another

What a reader has read does not depend on the bytes behind it: up to the footer
`HeapReader` and Go's `reader` are `ByteParser.Built`, so `Stable`.  Only then do
both compare the offset with the length of the input, so that an artifact with more
bytes behind it is rejected, and so is an artifact that was cut.
-/

import Pydump.Analyzer.ReaderShape
import Pydump.Go.ReaderShape

namespace Pydump

open ByteParser

/-! ### The Python reader -/

namespace Analyzer

/-- **Up to the footer** the reader does not look behind what it reads. -/
theorem stable_readSections : Stable readSections := by
  rw [readSections_eq]
  have hfront : Built (fun _ => True) readFront := built_readFront fun _ => trivial
  exact (hfront.bind fun front => built_readBack (fun _ => trivial) fun _ _ => trivial).stable

/-- Where `read` succeeds, the sections end with the input. -/
theorem readSections_of_readHeap {source : List UInt8} {heap : Heap} (h : readHeap source = .ok heap) :
    ∃ sections, readSections source 0 = .ok (sections, source.length) := by
  rw [readHeap] at h
  cases hread : read source 0 with
  | error e =>
    rw [hread] at h
    cases h
  | ok r =>
    obtain ⟨sections, off, hsections, hrest⟩ := bind_eq_ok.1 hread
    obtain ⟨source', off', hinput, hrest⟩ := bind_eq_ok.1 hrest
    obtain ⟨stop, off'', hoffset, hrest⟩ := bind_eq_ok.1 hrest
    cases hinput
    cases hoffset
    obtain ⟨_, _, hensure, -⟩ := bind_eq_ok.1 hrest
    exact ⟨sections, ensure_eq_ok hensure ▸ hsections⟩

/-- **The Python reader accepts no extension** of what it accepts. -/
theorem readHeap_append {source post : List UInt8} {heap heap' : Heap} (h : readHeap source = .ok heap)
    (hpost : post ≠ []) : readHeap (source ++ post) ≠ .ok heap' := by
  intro hextended
  obtain ⟨sections, hsections⟩ := readSections_of_readHeap h
  obtain ⟨sections', hsections'⟩ := readSections_of_readHeap hextended
  exact stable_readSections.not_extended hsections hpost sections' hsections'

end Analyzer

/-! ### The Go reader -/

namespace Go

/-- Where `Load` succeeds, the body ends with the input. -/
theorem readBody_of_load {source : List UInt8} {heap : Heap} (h : load source = .ok heap) :
    ∃ body, readBody source 0 = .ok (body, source.length) := by
  rw [load, read_eq] at h
  cases hread : (readBody >>= readEnd) source 0 with
  | error e =>
    rw [hread] at h
    cases h
  | ok r =>
    obtain ⟨body, off, hbody, hrest⟩ := bind_eq_ok.1 hread
    obtain ⟨source', off', hinput, hrest⟩ := bind_eq_ok.1 hrest
    obtain ⟨last, off'', hoffset, hrest⟩ := bind_eq_ok.1 hrest
    cases hinput
    cases hoffset
    obtain ⟨_, _, hensure, -⟩ := bind_eq_ok.1 hrest
    exact ⟨body, ensure_eq_ok hensure ▸ hbody⟩

/-- **The Go reader accepts no extension** of what it accepts. -/
theorem load_append {source post : List UInt8} {heap heap' : Heap} (h : load source = .ok heap) (hpost : post ≠ []) :
    load (source ++ post) ≠ .ok heap' := by
  intro hextended
  obtain ⟨body, hbody⟩ := readBody_of_load h
  obtain ⟨body', hbody'⟩ := readBody_of_load hextended
  exact built_readBody.stable.not_extended hbody hpost body' hbody'

end Go

/-! ### Both -/

namespace Artifact

/-- The Python reader returns a heap. -/
def PythonAccepts (source : List UInt8) : Prop := ∃ heap, Analyzer.readHeap source = .ok heap

/-- The Go reader returns a heap. -/
def GoAccepts (source : List UInt8) : Prop := ∃ heap, Go.load source = .ok heap

/-- What is accepted is neither cut short nor followed by anything. -/
def PrefixFree (accepts : List UInt8 → Prop) : Prop :=
  ∀ source, accepts source → (∀ front rest, source = front ++ rest → rest ≠ [] → ¬accepts front) ∧
    ∀ post, post ≠ [] → ¬accepts (source ++ post)

/-- Cutting an accepted input is extending the shorter one. -/
theorem prefixFree_of_append {accepts : List UInt8 → Prop}
    (h : ∀ source post, accepts source → post ≠ [] → ¬accepts (source ++ post)) : PrefixFree accepts := by
  refine fun source haccepts => ⟨fun front rest hsource hrest hfront => ?_, fun post => h source post haccepts⟩
  exact h front rest hfront hrest (hsource ▸ haccepts)

/-- **Readers reject every truncation and every extension** of what they accept. -/
theorem readers_prefixFree : PrefixFree PythonAccepts ∧ PrefixFree GoAccepts := by
  refine ⟨prefixFree_of_append ?_, prefixFree_of_append ?_⟩
  · rintro source post ⟨heap, h⟩ hpost ⟨heap', h'⟩
    exact Analyzer.readHeap_append h hpost h'
  · rintro source post ⟨heap, h⟩ hpost ⟨heap', h'⟩
    exact Go.load_append h hpost h'

end Artifact
end Pydump
