import AdapterFabric.Authority
import AdapterFabric.Compatibility
import AdapterFabric.Lib.Json

/-!
# AdapterFabric.Explain

Explanations and their JSON texts (`explain.hpp`, `explain.cpp`).

* `Writes`: a text with the value it stands for and the strings it quotes, with a rule for each kind
  of value.
* `explanations_parse_iff`: a text denotes its value just when no string it quotes contains a
  control character that `json_escape` leaves as it is.
-/

namespace AdapterFabric

open Json

/-! ## Explanations -/

def AuthorityVerdict.toBytes : AuthorityVerdict → Bytes
  | .authorized => ascii "authorized"
  | .staleWorker => ascii "stale_worker"
  | .staleBoot => ascii "stale_boot"
  | .staleAttempt => ascii "stale_attempt"
  | .staleAdapterGeneration => ascii "stale_adapter_generation"
  | .staleCompositionGeneration => ascii "stale_composition_generation"
  | .staleResidencyGeneration => ascii "stale_residency_generation"
  | .staleArtifactGeneration => ascii "stale_artifact_generation"
  | .staleBaseModel => ascii "stale_base_model"
  | .staleEpoch => ascii "stale_epoch"
  | .unknown => ascii "unknown"

/-- `to_json` on an authority check. -/
def AuthorityCheck.toJson (c : AuthorityCheck) : Bytes :=
  ascii "\x7b\"authorized\":" ++ ascii (if c.authorized then "true" else "false") ++
    ascii ",\"verdict\":\"" ++ c.verdict.toBytes ++ ascii "\",\"reason\":\"" ++
    jsonEscape c.reason ++ ascii "\"\x7d"

inductive ExplainKind where
  | compatibility | readiness | activation | reuse | migration | eviction | composition
  | staleAuthority | invalidation
deriving DecidableEq

/-- The cast to `int`. -/
def ExplainKind.toNat : ExplainKind → Nat
  | .compatibility => 0
  | .readiness => 1
  | .activation => 2
  | .reuse => 3
  | .migration => 4
  | .eviction => 5
  | .composition => 6
  | .staleAuthority => 7
  | .invalidation => 8

structure Explanation where
  kind : ExplainKind
  ok : Bool := false
  text : Bytes
  json : Bytes
  reasons : List Bytes

namespace Explanation

def make (k : ExplainKind) (ok : Bool) (text : Bytes) (reasons : List Bytes) : Explanation :=
  { kind := k
    ok
    text
    reasons
    json :=
      ascii "\x7b\"kind\":\"" ++ decimal k.toNat ++ ascii "\",\"ok\":" ++
        ascii (if ok then "true" else "false") ++ ascii ",\"text\":\"" ++ jsonEscape text ++
        ascii "\",\"reasons\":[" ++
        (ascii ",").intercalate
          (reasons.map fun s => ascii "\"" ++ jsonEscape s ++ ascii "\"") ++ ascii "]\x7d" }

/-- The loop over the factors. -/
def factorReasons (factors : List CompatibilityFactor) : List Bytes :=
  factors.flatMap fun f =>
    match f.status with
    | .rejected => [f.name ++ ascii ": " ++ f.reason]
    | .missing => [f.name ++ ascii ": missing evidence"]
    | .accepted => []

def explainCompatibility (r : CompatibilityReport) : Explanation :=
  make .compatibility r.compatible r.summary (factorReasons r.factors)

def explainReadiness (ready : Bool) (state reason : Bytes) : Explanation :=
  make .readiness ready
    (ascii "state=" ++ state ++ ascii (if ready then ", ok=true" else ", ok=false") ++
      ascii ", reason=" ++ reason)
    [reason]

/-- The text of the explanations that say `yes` or `no` to `what`, and why. -/
def answer (what : String) (b : Bool) (yes no : String) (reason : Bytes) : Bytes :=
  ascii what ++ ascii (if b then yes else no) ++ ascii ": " ++ reason

def explainActivation (ok : Bool) (check : AuthorityCheck) : Explanation :=
  make .activation (ok && check.authorized)
    (answer "activation " ok "granted" "denied" check.reason) [check.reason]

def explainReuse (permitted : Bool) (reason : Bytes) : Explanation :=
  make .reuse permitted (answer "reuse " permitted "permitted" "denied" reason) [reason]

def explainMigration (selected : Bool) (reason : Bytes) : Explanation :=
  make .migration selected (answer "migration " selected "selected" "not selected" reason) [reason]

def explainEviction (permitted : Bool) (reason : Bytes) : Explanation :=
  make .eviction permitted (answer "eviction " permitted "permitted" "denied" reason) [reason]

def explainComposition (valid : Bool) (summary : Bytes) : Explanation :=
  make .composition valid (answer "composition " valid "valid" "invalid" summary) [summary]

def explainStaleAuthority (check : AuthorityCheck) : Explanation :=
  make .staleAuthority check.authorized
    (answer "authority " check.authorized "current" "stale" check.reason) [check.reason]

def explainInvalidation (trigger reason : Bytes) : Explanation :=
  make .invalidation false (ascii "invalidated by " ++ trigger ++ ascii ": " ++ reason) [reason]

end Explanation

/-! ## Texts and values -/

def quote (s : Bytes) : Bytes := ascii "\"" ++ jsonEscape s ++ ascii "\""

theorem jsonEscape_cons (c : UInt8) (s : Bytes) :
    jsonEscape (c :: s) = jsonEscape [c] ++ jsonEscape s := by
  simp [jsonEscape]

/-- What stands for a clean string is read back as it. -/
theorem quotes_jsonEscape {s : Bytes} (h : Clean s) : Quotes (jsonEscape s ++ [0x22]) s := by
  induction s with
  | nil => exact .nil
  | cons c s ih =>
    obtain ⟨hc, hs⟩ := List.forall_mem_cons.mp h
    rw [jsonEscape_cons, List.append_assoc]
    by_cases h34 : c = 34
    · subst h34
      exact .short (c := 0x22) rfl (ih hs)
    by_cases h92 : c = 92
    · subst h92
      exact .short (c := 0x5C) rfl (ih hs)
    by_cases h10 : c = 10
    · subst h10
      exact .short (c := 0x6E) rfl (ih hs)
    by_cases h13 : c = 13
    · subst h13
      exact .short (c := 0x72) rfl (ih hs)
    by_cases h9 : c = 9
    · subst h9
      exact .short (c := 0x74) rfl (ih hs)
    · have hkeep : jsonEscape [c] = [c] := by simp [jsonEscape, h34, h92, h10, h13, h9]
      rw [hkeep]
      refine .plain h34 h92 (fun hlt => ?_) (ih hs)
      rcases hc with hc | rfl | rfl | rfl
      · exact absurd (UInt8.lt_of_lt_of_le hlt hc) (UInt8.lt_irrefl _)
      · exact h9 rfl
      · exact h10 rfl
      · exact h13 rfl

/-- Every control character that is not escaped stands in the text. -/
theorem clean_of_jsonEscape {s : Bytes} (h : Clean (jsonEscape s)) : Clean s := by
  intro b hb
  by_contra hillegal
  have hne : ∀ c, Legal c → b ≠ c := fun c hc heq => hillegal (heq ▸ hc)
  refine hillegal (h b (List.mem_flatMap.mpr ⟨b, hb, ?_⟩))
  rw [if_neg (hne _ (by decide)), if_neg (hne _ (by decide)), if_neg (hne _ (by decide)),
    if_neg (hne _ (by decide)), if_neg (hne _ (by decide))]
  exact List.mem_singleton_self b

theorem utf8_jsonEscape {s : Bytes} (h : IsUtf8 s) : IsUtf8 (jsonEscape s) := by
  refine h.flatMap (fun c hc => ?_) fun c hc => ?_
  · split_ifs <;> first | decide | exact List.forall_mem_singleton.mpr hc
  · have hne : ∀ d, d < 0x80 → c ≠ d := fun d hd heq => hc (heq ▸ hd)
    rw [if_neg (hne _ (by decide)), if_neg (hne _ (by decide)), if_neg (hne _ (by decide)),
      if_neg (hne _ (by decide)), if_neg (hne _ (by decide))]

/-- A constant of the source: ASCII, and without anything to escape. -/
def Plain (w : Bytes) : Prop := jsonEscape w = w ∧ Clean w ∧ IsAscii w

instance (w : Bytes) : Decidable (Plain w) :=
  inferInstanceAs (Decidable (jsonEscape w = w ∧ Clean w ∧ IsAscii w))

theorem Plain.clean {w : Bytes} (h : Plain w) : Clean w := h.2.1

theorem Plain.utf8 {w : Bytes} (h : Plain w) : IsUtf8 w := .ascii h.2.2

/-- `w` is a text of `v` as far as the strings `ss`, which it quotes, can be quoted. -/
structure Writes (w : Bytes) (v : Value) (ss : List Bytes) : Prop where
  utf8 : (∀ s ∈ ss, IsUtf8 s) → IsUtf8 w
  renders : (∀ s ∈ ss, Clean s) → Renders w v
  quoted : Clean w → ∀ s ∈ ss, Clean s

/-- A member of an object under a constant key. -/
structure Member where
  key : String
  text : Bytes
  value : Value
  strings : List Bytes

def Member.toBytes (m : Member) : Bytes := ascii "\"" ++ ascii m.key ++ ascii "\":" ++ m.text

def objectText (ms : List Member) : Bytes :=
  ascii "\x7b" ++ (ascii ",").intercalate (ms.map Member.toBytes) ++ ascii "\x7d"

namespace Writes

theorem constant {w : Bytes} (h : Plain w) :
    Writes (ascii "\"" ++ w ++ ascii "\"") (.string w) [] where
  utf8 _ := ((IsUtf8.ascii (by decide)).append h.utf8).append (.ascii (by decide))
  renders _ := by
    have hquotes := quotes_jsonEscape h.clean
    rw [h.1] at hquotes
    exact .string hquotes
  quoted _ := by simp

theorem string (s : Bytes) : Writes (quote s) (.string s) [s] where
  utf8 h := by
    rw [List.forall_mem_singleton] at h
    exact ((IsUtf8.ascii (by decide)).append (utf8_jsonEscape h)).append (.ascii (by decide))
  renders h := .string (quotes_jsonEscape (List.forall_mem_singleton.mp h))
  quoted h := by
    rw [List.forall_mem_singleton]
    refine clean_of_jsonEscape fun b hb => h b ?_
    simp [quote, hb]

theorem bool (b : Bool) : Writes (ascii (if b then "true" else "false")) (.bool b) [] where
  utf8 _ := by cases b <;> exact .ascii (by decide)
  renders _ := by
    cases b with
    | true => exact .true
    | false => exact .false
  quoted _ := by simp

theorem utf8_intercalate {ws : List Bytes} (h : ∀ w ∈ ws, IsUtf8 w) :
    IsUtf8 ((ascii ",").intercalate ws) := by
  induction ws with
  | nil => exact .nil
  | cons w ws ih =>
    rw [List.forall_mem_cons] at h
    cases ws with
    | nil => simpa using h.1
    | cons w' ws =>
      rw [List.intercalate_cons_cons]
      exact (h.1.append (.ascii (by decide))).append (ih h.2)

theorem clean_of_intercalate {ws : List Bytes} (h : Clean ((ascii ",").intercalate ws)) :
    ∀ w ∈ ws, Clean w := by
  induction ws with
  | nil => simp
  | cons w ws ih =>
    cases ws with
    | nil => simpa using h
    | cons w' ws =>
      rw [List.intercalate_cons_cons] at h
      rw [List.forall_mem_cons]
      exact ⟨fun b hb => h b (by simp [hb]), ih fun b hb => h b (by simp [hb])⟩

theorem array {α : Type} {w : α → Bytes} {v : α → Value} {ss : α → List Bytes} (as : List α)
    (h : ∀ a ∈ as, Writes (w a) (v a) (ss a)) :
    Writes (ascii "[" ++ (ascii ",").intercalate (as.map w) ++ ascii "]") (.array (as.map v))
      (as.flatMap ss) where
  utf8 hss := by
    refine ((IsUtf8.ascii (by decide)).append (utf8_intercalate ?_)).append (.ascii (by decide))
    rw [List.forall_mem_map]
    exact fun a ha => (h a ha).utf8 fun s hs => hss s (List.mem_flatMap.mpr ⟨a, ha, hs⟩)
  renders hss := by
    refine Renders.array ?_
    rw [List.forall₂_map_left_iff, List.forall₂_map_right_iff, List.forall₂_same]
    exact fun a ha => (h a ha).renders fun s hs => hss s (List.mem_flatMap.mpr ⟨a, ha, hs⟩)
  quoted hw := by
    have hwriting := clean_of_intercalate (clean_append.mp (clean_append.mp hw).1).2
    rw [List.forall_mem_map] at hwriting
    intro s hs
    obtain ⟨a, ha, hs⟩ := List.mem_flatMap.mp hs
    exact (h a ha).quoted (hwriting a ha) s hs

theorem object (ms : List Member)
    (h : ∀ m ∈ ms, Plain (ascii m.key) ∧ Writes m.text m.value m.strings) :
    Writes (objectText ms) (.object (ms.map fun m => (ascii m.key, m.value)))
      (ms.flatMap (·.strings)) where
  utf8 hss := by
    refine ((IsUtf8.ascii (by decide)).append (utf8_intercalate ?_)).append (.ascii (by decide))
    rw [List.forall_mem_map]
    intro m hm
    obtain ⟨hkey, hvalue⟩ := h m hm
    refine (((IsUtf8.ascii (by decide)).append hkey.utf8).append (.ascii (by decide))).append ?_
    exact hvalue.utf8 fun s hs => hss s (List.mem_flatMap.mpr ⟨m, hm, hs⟩)
  renders hss := by
    refine Renders.object ?_
    rw [List.forall₂_map_left_iff, List.forall₂_map_right_iff, List.forall₂_same]
    intro m hm
    obtain ⟨hkey, hvalue⟩ := h m hm
    have hquotes := quotes_jsonEscape hkey.clean
    rw [hkey.1] at hquotes
    refine ⟨_, m.text, ?_, hquotes,
      hvalue.renders fun s hs => hss s (List.mem_flatMap.mpr ⟨m, hm, hs⟩)⟩
    show [0x22] ++ ascii m.key ++ [0x22, 0x3A] ++ m.text = _
    simp
  quoted hw := by
    have hwriting := clean_of_intercalate (clean_append.mp (clean_append.mp hw).1).2
    rw [List.forall_mem_map] at hwriting
    intro s hs
    obtain ⟨m, hm, hs⟩ := List.mem_flatMap.mp hs
    exact (h m hm).2.quoted (clean_append.mp (hwriting m hm)).2 s hs

/-- Where its strings are valid, a text denotes its value just when they are clean. -/
theorem denotes_iff {w : Bytes} {v : Value} {ss : List Bytes} (h : Writes w v ss)
    (hutf8 : ∀ s ∈ ss, IsUtf8 s) : Denotes w v ↔ ∀ s ∈ ss, Clean s := by
  constructor
  · intro hden
    exact h.quoted hden.clean
  · intro hclean
    exact (h.renders hclean).denotes (h.utf8 hutf8)

end Writes

/-! ## The texts of the source -/

theorem FactorStatus.plain (s : FactorStatus) : Plain s.toBytes := by
  cases s <;> decide

theorem AuthorityVerdict.plain (v : AuthorityVerdict) : Plain v.toBytes := by
  cases v <;> decide

theorem ExplainKind.plain (k : ExplainKind) : Plain (decimal k.toNat) := by
  cases k <;> decide

namespace CompatibilityFactor

def members (f : CompatibilityFactor) : List Member :=
  [⟨"name", quote f.name, .string f.name, [f.name]⟩,
    ⟨"status", ascii "\"" ++ f.status.toBytes ++ ascii "\"", .string f.status.toBytes, []⟩,
    ⟨"detail", quote f.detail, .string f.detail, [f.detail]⟩,
    ⟨"reason", quote f.reason, .string f.reason, [f.reason]⟩]

theorem toJson_eq (f : CompatibilityFactor) : f.toJson = objectText f.members := by
  simp only [toJson, objectText, members, List.map_cons, List.map_nil,
    List.intercalate_cons_cons, List.intercalate_singleton, Member.toBytes, quote,
    List.append_assoc]
  rfl

def value (f : CompatibilityFactor) : Value :=
  .object [(ascii "name", .string f.name), (ascii "status", .string f.status.toBytes),
    (ascii "detail", .string f.detail), (ascii "reason", .string f.reason)]

def strings (f : CompatibilityFactor) : List Bytes := [f.name, f.detail, f.reason]

theorem writes (f : CompatibilityFactor) : Writes f.toJson f.value f.strings := by
  rw [toJson_eq]
  refine .object f.members ?_
  simp only [members, List.forall_mem_cons]
  exact ⟨⟨by decide, .string _⟩, ⟨by decide, .constant f.status.plain⟩, ⟨by decide, .string _⟩,
    ⟨by decide, .string _⟩, by simp⟩

end CompatibilityFactor

namespace CompatibilityReport

def members (r : CompatibilityReport) : List Member :=
  [⟨"compatible", ascii (if r.compatible then "true" else "false"), .bool r.compatible, []⟩,
    ⟨"summary", quote r.summary, .string r.summary, [r.summary]⟩,
    ⟨"factors",
      ascii "[" ++ (ascii ",").intercalate (r.factors.map (·.toJson)) ++ ascii "]",
      .array (r.factors.map (·.value)), r.factors.flatMap (·.strings)⟩]

theorem toJson_eq (r : CompatibilityReport) : r.toJson = objectText r.members := by
  simp only [toJson, objectText, members, List.map_cons, List.map_nil,
    List.intercalate_cons_cons, List.intercalate_singleton, Member.toBytes, quote,
    List.append_assoc]
  rfl

def value (r : CompatibilityReport) : Value :=
  .object [(ascii "compatible", .bool r.compatible), (ascii "summary", .string r.summary),
    (ascii "factors", .array (r.factors.map (·.value)))]

def strings (r : CompatibilityReport) : List Bytes :=
  r.summary :: r.factors.flatMap (·.strings)

theorem writes (r : CompatibilityReport) : Writes r.toJson r.value r.strings := by
  have h : Writes (objectText r.members) r.value (r.members.flatMap (·.strings)) := by
    refine .object r.members ?_
    simp only [members, List.forall_mem_cons]
    exact ⟨⟨by decide, .bool _⟩, ⟨by decide, .string _⟩,
      ⟨by decide, .array _ fun f _ => f.writes⟩, by simp⟩
  rw [toJson_eq]
  simpa [members, strings] using h

end CompatibilityReport

namespace AuthorityCheck

def members (c : AuthorityCheck) : List Member :=
  [⟨"authorized", ascii (if c.authorized then "true" else "false"), .bool c.authorized, []⟩,
    ⟨"verdict", ascii "\"" ++ c.verdict.toBytes ++ ascii "\"", .string c.verdict.toBytes, []⟩,
    ⟨"reason", quote c.reason, .string c.reason, [c.reason]⟩]

theorem toJson_eq (c : AuthorityCheck) : c.toJson = objectText c.members := by
  simp only [toJson, objectText, members, List.map_cons, List.map_nil,
    List.intercalate_cons_cons, List.intercalate_singleton, Member.toBytes, quote,
    List.append_assoc]
  rfl

def value (c : AuthorityCheck) : Value :=
  .object [(ascii "authorized", .bool c.authorized), (ascii "verdict", .string c.verdict.toBytes),
    (ascii "reason", .string c.reason)]

theorem writes (c : AuthorityCheck) : Writes c.toJson c.value [c.reason] := by
  rw [toJson_eq]
  refine .object c.members ?_
  simp only [members, List.forall_mem_cons]
  exact ⟨⟨by decide, .bool _⟩, ⟨by decide, .constant c.verdict.plain⟩, ⟨by decide, .string _⟩,
    by simp⟩

end AuthorityCheck

namespace Explanation

def members (k : ExplainKind) (ok : Bool) (text : Bytes) (reasons : List Bytes) : List Member :=
  [⟨"kind", ascii "\"" ++ decimal k.toNat ++ ascii "\"", .string (decimal k.toNat), []⟩,
    ⟨"ok", ascii (if ok then "true" else "false"), .bool ok, []⟩,
    ⟨"text", quote text, .string text, [text]⟩,
    ⟨"reasons", ascii "[" ++ (ascii ",").intercalate (reasons.map quote) ++ ascii "]",
      .array (reasons.map .string), reasons.flatMap fun s => [s]⟩]

/-- What the text of an explanation stands for. -/
def value (e : Explanation) : Value :=
  .object [(ascii "kind", .string (decimal e.kind.toNat)), (ascii "ok", .bool e.ok),
    (ascii "text", .string e.text), (ascii "reasons", .array (e.reasons.map .string))]

theorem make_json (k : ExplainKind) (ok : Bool) (text : Bytes) (reasons : List Bytes) :
    (make k ok text reasons).json = objectText (members k ok text reasons) := by
  have hquote : (fun s => ascii "\"" ++ jsonEscape s ++ ascii "\"") = quote := rfl
  simp only [make, hquote]
  simp only [objectText, members, List.map_cons, List.map_nil, List.intercalate_cons_cons,
    List.intercalate_singleton, Member.toBytes, quote, List.append_assoc]
  rfl

theorem make_writes (k : ExplainKind) (ok : Bool) (text : Bytes) (reasons : List Bytes) :
    Writes (make k ok text reasons).json (make k ok text reasons).value (text :: reasons) := by
  have h : Writes (objectText (members k ok text reasons)) (make k ok text reasons).value
      ((members k ok text reasons).flatMap (·.strings)) := by
    refine .object (members k ok text reasons) ?_
    simp only [members, List.forall_mem_cons]
    exact ⟨⟨by decide, .constant k.plain⟩, ⟨by decide, .bool _⟩, ⟨by decide, .string _⟩,
      ⟨by decide, .array _ fun s _ => .string s⟩, by simp⟩
  rw [make_json]
  simpa [members] using h

end Explanation

/-! ## The explanations -/

/-- A call of one of the functions that explain. -/
inductive ExplainCall where
  | compatibility (r : CompatibilityReport)
  | readiness (ready : Bool) (state reason : Bytes)
  | activation (ok : Bool) (check : AuthorityCheck)
  | reuse (permitted : Bool) (reason : Bytes)
  | migration (selected : Bool) (reason : Bytes)
  | eviction (permitted : Bool) (reason : Bytes)
  | composition (valid : Bool) (summary : Bytes)
  | staleAuthority (check : AuthorityCheck)
  | invalidation (trigger reason : Bytes)

namespace ExplainCall

open Explanation

def explain : ExplainCall → Explanation
  | compatibility r => explainCompatibility r
  | readiness ready state reason => explainReadiness ready state reason
  | activation ok check => explainActivation ok check
  | reuse permitted reason => explainReuse permitted reason
  | migration selected reason => explainMigration selected reason
  | eviction permitted reason => explainEviction permitted reason
  | composition valid summary => explainComposition valid summary
  | staleAuthority check => explainStaleAuthority check
  | invalidation trigger reason => explainInvalidation trigger reason

/-- The strings of the arguments that the explanation quotes. -/
def strings : ExplainCall → List Bytes
  | compatibility r => r.summary :: r.factors.flatMap fun f =>
      match f.status with
      | .rejected => [f.name, f.reason]
      | .missing => [f.name]
      | .accepted => []
  | readiness _ state reason => [state, reason]
  | activation _ check => [check.reason]
  | reuse _ reason => [reason]
  | migration _ reason => [reason]
  | eviction _ reason => [reason]
  | composition _ summary => [summary]
  | staleAuthority check => [check.reason]
  | invalidation trigger reason => [trigger, reason]

theorem writes (x : ExplainCall) :
    Writes x.explain.json x.explain.value (x.explain.text :: x.explain.reasons) := by
  cases x <;> exact make_writes _ _ _ _

/-- What holds of constants and of texts put together holds of an explanation's texts. -/
theorem texts_of_strings {P : Bytes → Prop} (hplain : ∀ {w}, Plain w → P w)
    (happend : ∀ {s t}, P s → P t → P (s ++ t)) {x : ExplainCall} (h : ∀ s ∈ x.strings, P s) :
    ∀ s ∈ x.explain.text :: x.explain.reasons, P s := by
  have hanswer : ∀ {what yes no : String} (b : Bool) {reason : Bytes}, Plain (ascii what) →
      Plain (ascii yes) → Plain (ascii no) → P reason → P (answer what b yes no reason) := by
    intro what yes no b reason hwhat hyes hno hreason
    have hb : P (ascii (if b then yes else no)) := by
      cases b with
      | true => exact hplain hyes
      | false => exact hplain hno
    exact happend (happend (happend (hplain hwhat) hb) (hplain (by decide))) hreason
  rw [List.forall_mem_cons]
  cases x with
  | compatibility r =>
    obtain ⟨hsummary, hfactors⟩ := List.forall_mem_cons.mp h
    refine ⟨hsummary, fun s hs => ?_⟩
    obtain ⟨f, hf, hs⟩ := List.mem_flatMap.mp hs
    have hquoted := fun t ht => hfactors t (List.mem_flatMap.mpr ⟨f, hf, ht⟩)
    cases hstatus : f.status with
    | accepted =>
      rw [hstatus] at hs
      cases hs
    | rejected =>
      rw [hstatus] at hs hquoted
      rw [List.mem_singleton.mp hs]
      exact happend (happend (hquoted f.name (by simp)) (hplain (by decide)))
        (hquoted f.reason (by simp))
    | missing =>
      rw [hstatus] at hs hquoted
      rw [List.mem_singleton.mp hs]
      exact happend (hquoted f.name (by simp)) (hplain (by decide))
  | readiness ready state reason =>
    have hstate : P state := h state (by simp [strings])
    have hreason : P reason := h reason (by simp [strings])
    refine ⟨?_, List.forall_mem_singleton.mpr hreason⟩
    have hready : Plain (ascii (if ready then ", ok=true" else ", ok=false")) := by
      cases ready <;> decide
    exact happend (happend (happend (happend (hplain (by decide)) hstate) (hplain hready))
      (hplain (by decide))) hreason
  | activation ok check =>
    have hreason : P check.reason := List.forall_mem_singleton.mp h
    exact ⟨hanswer ok (by decide) (by decide) (by decide) hreason,
      List.forall_mem_singleton.mpr hreason⟩
  | reuse b reason =>
    exact ⟨hanswer b (by decide) (by decide) (by decide) (List.forall_mem_singleton.mp h), h⟩
  | migration b reason =>
    exact ⟨hanswer b (by decide) (by decide) (by decide) (List.forall_mem_singleton.mp h), h⟩
  | eviction b reason =>
    exact ⟨hanswer b (by decide) (by decide) (by decide) (List.forall_mem_singleton.mp h), h⟩
  | composition b summary =>
    exact ⟨hanswer b (by decide) (by decide) (by decide) (List.forall_mem_singleton.mp h), h⟩
  | staleAuthority check =>
    have hreason : P check.reason := List.forall_mem_singleton.mp h
    exact ⟨hanswer check.authorized (by decide) (by decide) (by decide) hreason,
      List.forall_mem_singleton.mpr hreason⟩
  | invalidation trigger reason =>
    have htrigger : P trigger := h trigger (by simp [strings])
    have hreason : P reason := h reason (by simp [strings])
    exact ⟨happend (happend (happend (hplain (by decide)) htrigger) (hplain (by decide))) hreason,
      List.forall_mem_singleton.mpr hreason⟩

theorem clean_strings {x : ExplainCall}
    (h : ∀ s ∈ x.explain.text :: x.explain.reasons, Clean s) : ∀ s ∈ x.strings, Clean s := by
  obtain ⟨htext, hreasons⟩ := List.forall_mem_cons.mp h
  cases x with
  | compatibility r =>
    refine List.forall_mem_cons.mpr ⟨htext, fun s hs => ?_⟩
    obtain ⟨f, hf, hs⟩ := List.mem_flatMap.mp hs
    have hquoted := fun t ht => hreasons t (List.mem_flatMap.mpr ⟨f, hf, ht⟩)
    cases hstatus : f.status with
    | accepted =>
      rw [hstatus] at hs
      cases hs
    | rejected =>
      rw [hstatus] at hs hquoted
      have hclean := clean_append.mp (hquoted _ (List.mem_singleton_self _))
      rcases List.mem_pair.mp hs with rfl | rfl
      · exact (clean_append.mp hclean.1).1
      · exact hclean.2
    | missing =>
      rw [hstatus] at hs hquoted
      rw [List.mem_singleton.mp hs]
      exact (clean_append.mp (hquoted _ (List.mem_singleton_self _))).1
  | readiness ready state reason =>
    have hprefix := (clean_append.mp (clean_append.mp (clean_append.mp htext).1).1).1
    exact List.forall_mem_cons.mpr ⟨(clean_append.mp hprefix).2, hreasons⟩
  | invalidation trigger reason =>
    have htrigger := (clean_append.mp (clean_append.mp (clean_append.mp htext).1).1).2
    exact List.forall_mem_cons.mpr ⟨htrigger, hreasons⟩
  | _ => exact hreasons

theorem denotes_iff (x : ExplainCall) (h : ∀ s ∈ x.strings, IsUtf8 s) :
    Denotes x.explain.json x.explain.value ↔ ∀ s ∈ x.strings, Clean s := by
  rw [x.writes.denotes_iff (texts_of_strings Plain.utf8 IsUtf8.append h)]
  exact ⟨clean_strings, texts_of_strings Plain.clean fun hs ht => clean_append.mpr ⟨hs, ht⟩⟩

end ExplainCall

/-- `json_escape` leaves most control characters as they are, which no JSON text may contain. -/
theorem explanations_parse_iff (s : Bytes) (r : CompatibilityReport) (c : AuthorityCheck)
    (x : ExplainCall) :
    (IsUtf8 s → (Denotes (quote s) (.string s) ↔ Clean s)) ∧
    ((∀ s ∈ r.strings, IsUtf8 s) → (Denotes r.toJson r.value ↔ ∀ s ∈ r.strings, Clean s)) ∧
    (IsUtf8 c.reason → (Denotes c.toJson c.value ↔ Clean c.reason)) ∧
    ((∀ s ∈ x.strings, IsUtf8 s) →
      (Denotes x.explain.json x.explain.value ↔ ∀ s ∈ x.strings, Clean s)) := by
  refine ⟨fun hs => ?_, r.writes.denotes_iff, fun hc => ?_, x.denotes_iff⟩
  · have h := (Writes.string s).denotes_iff (List.forall_mem_singleton.mpr hs)
    rwa [List.forall_mem_singleton] at h
  · have h := c.writes.denotes_iff (List.forall_mem_singleton.mpr hc)
    rwa [List.forall_mem_singleton] at h

theorem explanations_parse_iff_sample :
    (Denotes (quote (ascii "a\n")) (.string (ascii "a\n")) ↔ Clean (ascii "a\n")) ∧
    (Denotes (CompatibilityReport.toJson {}) (CompatibilityReport.value {}) ↔
      ∀ s ∈ CompatibilityReport.strings {}, Clean s) ∧
    (Denotes (AuthorityCheck.toJson {}) (AuthorityCheck.value {}) ↔ Clean []) ∧
    (Denotes (Explanation.explainReuse true (ascii "warm")).json
      (Explanation.explainReuse true (ascii "warm")).value ↔ ∀ s ∈ [ascii "warm"], Clean s) := by
  have h := explanations_parse_iff (ascii "a\n") {} {} (.reuse true (ascii "warm"))
  refine ⟨h.1 (.ascii (by decide)), h.2.1 ?_, h.2.2.1 .nil, h.2.2.2 ?_⟩
  · exact List.forall_mem_cons.mpr ⟨.nil, by simp⟩
  · exact List.forall_mem_singleton.mpr (.ascii (by decide))

/-- The character U+0001, raw between its quotation marks. -/
theorem explanations_parse_counterexample :
    IsUtf8 [0x01] ∧ ¬ ∃ v, Denotes (quote [0x01]) v := by
  refine ⟨.ascii (by decide), ?_⟩
  rintro ⟨v, h⟩
  exact absurd (h.clean 0x01 (by decide)) (by decide)

end AdapterFabric
