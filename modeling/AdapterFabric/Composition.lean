import AdapterFabric.Adapter
import AdapterFabric.Checksum

/-!
# AdapterFabric.Composition

Published compositions and the builder that validates their members (`composition.hpp`,
`composition.cpp`).
-/

namespace AdapterFabric

/-- One member, frozen at publish time. -/
structure CompositionMember where
  adapterId : AdapterId := .nil
  revision : AdapterRevisionId := .nil
  generation : AdapterGeneration := .none
  memoryBytes : UInt64 := 0
  kind : AdapterKind := .generic
deriving DecidableEq

structure Composition where
  id : CompositionId := .nil
  members : List CompositionMember := []
  generation : CompositionGeneration := .none
  baseModel : BaseModelId := .nil
  baseModelRevision : ModelRevisionId := .nil
  policy : Bytes := []
  totalMemoryBytes : UInt64 := 0
  digest : Bytes := []
  validationSummary : Bytes := []
  isValid : Bool := false
deriving DecidableEq

structure CompositionBuilder where
  base : BaseModelId
  rev : ModelRevisionId
  policy : Bytes
  gen : CompositionGeneration
  descriptors : List AdapterDescriptor := []
  members : List CompositionMember := []

namespace CompositionBuilder

def add (b : CompositionBuilder) (d : AdapterDescriptor) : Except Error CompositionBuilder :=
  if b.members.any (·.adapterId == d.id) then
    .error ⟨.invalidComposition, ascii "duplicate adapter member"⟩
  else if d.generation.isNone then
    .error ⟨.invalidComposition, ascii "member has no generation"⟩
  else if d.baseModel ≠ b.base then
    .error ⟨.invalidComposition, ascii "member targets a different base model"⟩
  else if d.baseModelRevision ≠ b.rev then
    .error ⟨.invalidComposition, ascii "member targets a different model revision"⟩
  else
    .ok { b with
      members := b.members ++ [⟨d.id, d.revision, d.generation, d.memoryBytes, d.kind⟩]
      descriptors := b.descriptors ++ [d] }

/-- The canonical text of one member. -/
def memberText (m : CompositionMember) : Bytes :=
  m.adapterId.str ++ ascii "|" ++ m.revision.str ++ ascii "|" ++
    decimal m.generation.value.toNat ++ ascii "|" ++ decimal m.memoryBytes.toNat ++ ascii "|" ++
    decimal m.kind.byte.toNat ++ ascii ";"

def canonicalText (members : List CompositionMember) (policy : Bytes) : Bytes :=
  members.flatMap memberText ++ ascii "@" ++ policy

def computeDigest (members : List CompositionMember) (policy : Bytes) : Bytes :=
  hexEncode (wordBytes (fnv1a_64 fnvSeed (canonicalText members policy)))

/-- The inner loop of `build`: every target module name must be new. -/
def claimModules : List TargetModule → List Bytes → Except Error (List Bytes)
  | [], seen => .ok seen
  | t :: ts, seen =>
    if t.name ∈ seen then
      .error ⟨.invalidComposition, ascii "conflicting target module " ++ t.name⟩
    else claimModules ts (t.name :: seen)

/-- The loop of `build` over members and their descriptors; returns the memory total. -/
def buildLoop (b : CompositionBuilder) :
    List (CompositionMember × AdapterDescriptor) → List Bytes → List Bytes → UInt64 →
      Except Error UInt64
  | [], _, _, total => .ok total
  | (m, d) :: rest, seenIds, seenModules, total =>
    if m.adapterId.str ∈ seenIds then
      .error ⟨.invalidComposition, ascii "duplicate adapter member " ++ m.adapterId.str⟩
    else if m.generation.isNone then
      .error ⟨.invalidComposition, ascii "member has no generation"⟩
    else if d.baseModel ≠ b.base then
      .error ⟨.invalidComposition, ascii "member targets a different base model"⟩
    else if d.baseModelRevision ≠ b.rev then
      .error ⟨.invalidComposition, ascii "member targets a different model revision"⟩
    else if d.memoryBytes ≠ m.memoryBytes then
      .error ⟨.invalidComposition, ascii "member memory accounting mismatch"⟩
    else do
      let seenModules ← claimModules d.targets seenModules
      buildLoop b rest (m.adapterId.str :: seenIds) seenModules (total + m.memoryBytes)

/-- `build`; the composition id is drawn first, also when the build then fails. -/
def build (b : CompositionBuilder) (rng : Rng) : Except Error Composition × Rng :=
  let (id, rng) := Id.generate rng
  let result : Except Error Composition := do
    if b.members.isEmpty then
      throw ⟨.invalidComposition, ascii "composition has no members"⟩
    else
      let total ← buildLoop b (b.members.zip b.descriptors) [] [] 0
      let digest := computeDigest b.members b.policy
      pure {
        id := id
        members := b.members
        generation := b.gen
        baseModel := b.base
        baseModelRevision := b.rev
        policy := b.policy
        totalMemoryBytes := total
        digest := digest
        validationSummary :=
          ascii "members=" ++ decimal b.members.length ++ ascii ", digest=" ++ digest
        isValid := true }
  (result, rng)

theorem computeDigest_length (members : List CompositionMember) (policy : Bytes) :
    (computeDigest members policy).length = 16 := by
  have hhex : ∀ data : Bytes, (hexEncode data).length = 2 * data.length := by
    intro data
    induction data with
    | nil => rfl
    | cons b bs ih =>
      simp only [hexEncode, List.flatMap_cons, List.length_append, List.length_cons] at ih ⊢
      simp only [List.length_nil, ih]
      omega
  rw [computeDigest, hhex, wordBytes_length]

end CompositionBuilder

end AdapterFabric
