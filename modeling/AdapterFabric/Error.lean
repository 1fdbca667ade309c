import AdapterFabric.Identity

/-!
# AdapterFabric.Error

The error model (`error.hpp`, `error.cpp`). An `Error` is what a throwing function of the source
throws; a function that may throw returns `Except Error`.
-/

namespace AdapterFabric

inductive ErrorCode where
  | ok | invalidIdentity | invalidGeneration | invalidStateTransition | incompatibility
  | invalidComposition | capacityOvercommit | capacityUnderflow | doubleReservation | doubleRelease
  | notFound | alreadyExists | checksumMismatch | malformed | truncation | duplicate | invalidEnum
  | invalidGenerationValue | integerOverflow | trailingGarbage | unsupportedVersion | corrupt
  | staleAuthority | staleWorker | staleBoot | staleAttempt | staleGeneration | invalidActivation
  | evictionDenied | invalidMigration | invalidInvalidation | ioError | protocolError
  | transportError | resourceUnavailable | notAvailable | invalidArgument | preconditionError
  | authorityConflict | internalError
deriving DecidableEq

def ErrorCode.toBytes : ErrorCode → Bytes
  | .ok => ascii "ok"
  | .invalidIdentity => ascii "invalid_identity"
  | .invalidGeneration => ascii "invalid_generation"
  | .invalidStateTransition => ascii "invalid_state_transition"
  | .incompatibility => ascii "incompatibility"
  | .invalidComposition => ascii "invalid_composition"
  | .capacityOvercommit => ascii "capacity_overcommit"
  | .capacityUnderflow => ascii "capacity_underflow"
  | .doubleReservation => ascii "double_reservation"
  | .doubleRelease => ascii "double_release"
  | .notFound => ascii "not_found"
  | .alreadyExists => ascii "already_exists"
  | .checksumMismatch => ascii "checksum_mismatch"
  | .malformed => ascii "malformed"
  | .truncation => ascii "truncation"
  | .duplicate => ascii "duplicate"
  | .invalidEnum => ascii "invalid_enum"
  | .invalidGenerationValue => ascii "invalid_generation_value"
  | .integerOverflow => ascii "integer_overflow"
  | .trailingGarbage => ascii "trailing_garbage"
  | .unsupportedVersion => ascii "unsupported_version"
  | .corrupt => ascii "corrupt"
  | .staleAuthority => ascii "stale_authority"
  | .staleWorker => ascii "stale_worker"
  | .staleBoot => ascii "stale_boot"
  | .staleAttempt => ascii "stale_attempt"
  | .staleGeneration => ascii "stale_generation"
  | .invalidActivation => ascii "invalid_activation"
  | .evictionDenied => ascii "eviction_denied"
  | .invalidMigration => ascii "invalid_migration"
  | .invalidInvalidation => ascii "invalid_invalidation"
  | .ioError => ascii "io_error"
  | .protocolError => ascii "protocol_error"
  | .transportError => ascii "transport_error"
  | .resourceUnavailable => ascii "resource_unavailable"
  | .notAvailable => ascii "not_available"
  | .invalidArgument => ascii "invalid_argument"
  | .preconditionError => ascii "precondition_error"
  | .authorityConflict => ascii "authority_conflict"
  | .internalError => ascii "internal_error"

structure Error where
  code : ErrorCode
  message : Bytes
deriving DecidableEq

/-- `must_parse`: an identity, or `invalid_identity` with the parser's text. -/
def mustParse {tag : IdTag} (s : Bytes) : Except Error (Id tag) :=
  match Id.parse s with
  | .ok i => .ok i
  | .error m => .error ⟨.invalidIdentity, m⟩

theorem mustParse_str {tag : IdTag} (i : Id tag) : mustParse i.str = .ok i := by
  rw [mustParse, Id.parse_str]

theorem length_of_mustParse {tag : IdTag} {s : Bytes} {i : Id tag} (h : mustParse s = .ok i) :
    s.length = 36 := by
  unfold mustParse Id.parse at h
  cases hparse : Uuid.parse s with
  | error m =>
    rw [hparse] at h
    cases h
  | ok u => exact Uuid.length_of_parse hparse

theorem bind_eq_ok {ε α β : Type} {x : Except ε α} {f : α → Except ε β} {b : β} :
    (x >>= f) = .ok b ↔ ∃ a, x = .ok a ∧ f a = .ok b := by
  constructor
  · intro h
    cases x with
    | error e => cases h
    | ok a => exact ⟨a, rfl, h⟩
  · rintro ⟨a, rfl, h⟩
    exact h

end AdapterFabric
