import AdapterFabric.Explain
import AdapterFabric.Lib.Delimited

/-!
# AdapterFabric.Explain.Faithful

What can be told from the texts of `explain.cpp`, whatever bytes they quote.

A quoted string ends at the first quote that is not escaped, so each text says where its parts end,
also where it is no JSON for a control character in it.

* `explanations_faithful`: a text tells what was written into it, and an explanation which function
  made it and from what.
-/

namespace AdapterFabric

open Delimited

/-! ## Parts -/

theorem jsonEscape_singleton (c : UInt8) : jsonEscape [c] =
    if c = 34 then [92, 34] else if c = 92 then [92, 92] else if c = 10 then [92, 110]
    else if c = 13 then [92, 114] else if c = 9 then [92, 116] else [c] := by
  have hn : ascii "\\n" = [92, 110] := rfl
  have hr : ascii "\\r" = [92, 114] := rfl
  have ht : ascii "\\t" = [92, 116] := rfl
  rw [jsonEscape, List.flatMap_singleton, hn, hr, ht]

theorem jsonEscape_cons_inj {c d : UInt8} {u v : Bytes}
    (h : jsonEscape [c] ++ u = jsonEscape [d] ++ v) : c = d ∧ u = v := by
  rw [jsonEscape_singleton, jsonEscape_singleton] at h
  split_ifs at h <;> simp_all

/-- No character is written as a quote. -/
theorem jsonEscape_cons_ne {c : UInt8} {u v : Bytes} : jsonEscape [c] ++ u ≠ 34 :: v := by
  intro h
  rw [jsonEscape_singleton] at h
  split_ifs at h <;> simp_all

/-- The first quote that is not escaped ends a string. -/
theorem escaped_inj {s : Bytes} : ∀ {t u v : Bytes},
    jsonEscape s ++ 34 :: u = jsonEscape t ++ 34 :: v → s = t ∧ u = v := by
  induction s with
  | nil =>
    intro t u v h
    cases t with
    | nil => exact ⟨rfl, (List.cons.inj h).2⟩
    | cons d t =>
      rw [jsonEscape_cons, List.append_assoc] at h
      exact absurd h.symm jsonEscape_cons_ne
  | cons c s ih =>
    intro t u v h
    rw [jsonEscape_cons, List.append_assoc] at h
    cases t with
    | nil => exact absurd h jsonEscape_cons_ne
    | cons d t =>
      rw [jsonEscape_cons d t, List.append_assoc] at h
      obtain ⟨rfl, htail⟩ := jsonEscape_cons_inj h
      obtain ⟨rfl, huv⟩ := ih htail
      exact ⟨rfl, huv⟩

theorem quote_append (s u : Bytes) : quote s ++ u = 34 :: (jsonEscape s ++ 34 :: u) := by
  have hquote : ascii "\"" = [34] := rfl
  simp [quote, hquote]

theorem delimits_quote : Delimits quote := by
  intro s t u v h
  rw [quote_append, quote_append] at h
  exact escaped_inj (List.cons.inj h).2

theorem delimits_bool : Delimits fun b : Bool => ascii (if b then "true" else "false") := by
  intro b b' u v h
  cases b <;> cases b'
  · exact ⟨rfl, List.append_cancel_left h⟩
  · exact absurd (List.cons.inj h).1 (by decide)
  · exact absurd (List.cons.inj h).1 (by decide)
  · exact ⟨rfl, List.append_cancel_left h⟩

theorem delimits_constant {α : Type} {w : α → Bytes} (hinj : Function.Injective w)
    (hquote : ∀ a, 34 ∉ w a) : Delimits fun a => ascii "\"" ++ w a ++ ascii "\"" := by
  intro a b u v h
  have hopen : ascii "\"" = [34] := rfl
  simp only [hopen, List.append_assoc, List.cons_append, List.nil_append] at h
  obtain ⟨hw, huv⟩ := append_cons_inj (hquote a) (hquote b) (List.cons.inj h).2
  exact ⟨hinj hw, huv⟩

theorem delimits_status :
    Delimits fun s : FactorStatus => ascii "\"" ++ s.toBytes ++ ascii "\"" := by
  refine delimits_constant (fun s t h => ?_) fun s => ?_
  · cases s <;> cases t <;> first | rfl | exact absurd h (by decide)
  · cases s <;> decide

theorem delimits_verdict :
    Delimits fun v : AuthorityVerdict => ascii "\"" ++ v.toBytes ++ ascii "\"" := by
  refine delimits_constant (fun v w h => ?_) fun v => ?_
  · cases v <;> cases w <;> first | rfl | exact absurd h (by decide)
  · cases v <;> decide

theorem delimits_kind :
    Delimits fun k : ExplainKind => ascii "\"" ++ decimal k.toNat ++ ascii "\"" := by
  refine delimits_constant (fun k l h => ?_) fun k => ?_
  · have hnumber := decimal_injective h
    cases k <;> cases l <;> first | rfl | cases hnumber
  · cases k <;> decide

/-! ## Texts -/

/-- Two members with one key. -/
structure Parallel (m m' : Member) : Prop where
  key : m.key = m'.key
  told : Told m.text m'.text

theorem Parallel.text_eq {m m' : Member} (h : Parallel m m') {u v : Bytes}
    (heq : m.toBytes ++ u = m'.toBytes ++ v) : m.text = m'.text ∧ u = v := by
  simp only [Member.toBytes, h.key, List.append_assoc] at heq
  exact h.told u v (List.append_cancel_left (List.append_cancel_left (List.append_cancel_left heq)))

theorem members_texts {ms ms' : List Member} (h : List.Forall₂ Parallel ms ms') : ∀ {u v : Bytes},
    (ascii ",").intercalate (ms.map Member.toBytes) ++ u =
      (ascii ",").intercalate (ms'.map Member.toBytes) ++ v →
    ms.map (·.text) = ms'.map (·.text) ∧ u = v := by
  induction h with
  | nil => exact fun heq => ⟨rfl, heq⟩
  | cons hm hrest ih =>
    intro u v heq
    cases hrest with
    | nil =>
      simp only [List.map_cons, List.map_nil, List.intercalate_singleton] at heq ⊢
      obtain ⟨htext, huv⟩ := hm.text_eq heq
      exact ⟨by rw [htext], huv⟩
    | cons hm' hrest =>
      simp only [List.map_cons, List.intercalate_cons_cons, List.append_assoc] at heq ih ⊢
      obtain ⟨htext, hcomma⟩ := hm.text_eq heq
      obtain ⟨htexts, huv⟩ := ih (List.append_cancel_left hcomma)
      exact ⟨by rw [htext, htexts], huv⟩

/-- An object with given keys tells the texts of its members and where it ends. -/
theorem object_texts {ms ms' : List Member} (h : List.Forall₂ Parallel ms ms') {u v : Bytes}
    (heq : objectText ms ++ u = objectText ms' ++ v) :
    ms.map (·.text) = ms'.map (·.text) ∧ u = v := by
  simp only [objectText, List.append_assoc] at heq
  obtain ⟨htexts, hrest⟩ := members_texts h (List.append_cancel_left heq)
  exact ⟨htexts, List.append_cancel_left hrest⟩

theorem delimits_array {α : Type} {enc : α → Bytes} (h : Delimits enc)
    (hhead : ∀ a, ∃ x, (enc a).head? = some x ∧ x ≠ 93) :
    Delimits fun as : List α =>
      ascii "[" ++ (ascii ",").intercalate (as.map enc) ++ ascii "]" := by
  intro as bs u v heq
  simp only [List.append_assoc] at heq
  have hcomma : ascii "," = [44] := rfl
  have hclose : ascii "]" = [93] := rfl
  refine h.separated (e := 93) (by decide : (44 : UInt8) ≠ 93) hhead as bs u v ?_
  simpa only [List.append_assoc, hcomma, hclose] using List.append_cancel_left heq

theorem delimits_factor : Delimits CompatibilityFactor.toJson := by
  intro f g u v heq
  rw [f.toJson_eq, g.toJson_eq] at heq
  have hparallel : List.Forall₂ Parallel f.members g.members := by
    simp only [CompatibilityFactor.members, List.forall₂_cons, List.Forall₂.nil, and_true]
    exact ⟨⟨rfl, delimits_quote.told _ _⟩, ⟨rfl, delimits_status.told _ _⟩,
      ⟨rfl, delimits_quote.told _ _⟩, ⟨rfl, delimits_quote.told _ _⟩⟩
  obtain ⟨htexts, huv⟩ := object_texts hparallel heq
  simp only [CompatibilityFactor.members, List.map_cons, List.map_nil, List.cons.injEq, and_true,
    delimits_quote.injective.eq_iff] at htexts
  obtain ⟨hname, hstatus, hdetail, hreason⟩ := htexts
  have hstatus := delimits_status.injective hstatus
  cases f
  cases g
  simp_all

theorem report_told {r r' : CompatibilityReport} {u v : Bytes}
    (heq : r.toJson ++ u = r'.toJson ++ v) :
    r.compatible = r'.compatible ∧ r.summary = r'.summary ∧ r.factors = r'.factors ∧ u = v := by
  rw [r.toJson_eq, r'.toJson_eq] at heq
  have hfactors := delimits_array delimits_factor fun f => ⟨123, rfl, by decide⟩
  have hparallel : List.Forall₂ Parallel r.members r'.members := by
    simp only [CompatibilityReport.members, List.forall₂_cons, List.Forall₂.nil, and_true]
    exact ⟨⟨rfl, delimits_bool.told _ _⟩, ⟨rfl, delimits_quote.told _ _⟩,
      ⟨rfl, hfactors.told _ _⟩⟩
  obtain ⟨htexts, huv⟩ := object_texts hparallel heq
  simp only [CompatibilityReport.members, List.map_cons, List.map_nil, List.cons.injEq,
    and_true] at htexts
  obtain ⟨hcompatible, hsummary, hlist⟩ := htexts
  exact ⟨delimits_bool.injective hcompatible, delimits_quote.injective hsummary,
    hfactors.injective hlist, huv⟩

theorem delimits_check : Delimits AuthorityCheck.toJson := by
  intro c d u v heq
  rw [c.toJson_eq, d.toJson_eq] at heq
  have hparallel : List.Forall₂ Parallel c.members d.members := by
    simp only [AuthorityCheck.members, List.forall₂_cons, List.Forall₂.nil, and_true]
    exact ⟨⟨rfl, delimits_bool.told _ _⟩, ⟨rfl, delimits_verdict.told _ _⟩,
      ⟨rfl, delimits_quote.told _ _⟩⟩
  obtain ⟨htexts, huv⟩ := object_texts hparallel heq
  simp only [AuthorityCheck.members, List.map_cons, List.map_nil, List.cons.injEq,
    and_true] at htexts
  have hverdict := delimits_verdict.injective htexts.2.1
  have hreason := delimits_quote.injective htexts.2.2
  cases c
  cases d
  simp_all

namespace Explanation

theorem make_told {k l : ExplainKind} {ok ok' : Bool} {text text' : Bytes}
    {reasons reasons' : List Bytes} {u v : Bytes}
    (heq : (make k ok text reasons).json ++ u = (make l ok' text' reasons').json ++ v) :
    (k = l ∧ ok = ok' ∧ text = text' ∧ reasons = reasons') ∧ u = v := by
  rw [make_json, make_json] at heq
  have hreasons := delimits_array delimits_quote fun s => ⟨34, rfl, by decide⟩
  have hparallel : List.Forall₂ Parallel (members k ok text reasons)
      (members l ok' text' reasons') := by
    simp only [members, List.forall₂_cons, List.Forall₂.nil, and_true]
    exact ⟨⟨rfl, delimits_kind.told _ _⟩, ⟨rfl, delimits_bool.told _ _⟩,
      ⟨rfl, delimits_quote.told _ _⟩, ⟨rfl, hreasons.told _ _⟩⟩
  obtain ⟨htexts, huv⟩ := object_texts hparallel heq
  simp only [members, List.map_cons, List.map_nil, List.cons.injEq, and_true] at htexts
  obtain ⟨hkind, hok, htext, hlist⟩ := htexts
  exact ⟨⟨delimits_kind.injective hkind, delimits_bool.injective hok,
    delimits_quote.injective htext, hreasons.injective hlist⟩, huv⟩

/-- A text that says `yes` or `no` says which. -/
theorem answer_inj {what yes no : String} {b b' : Bool} {reason reason' : Bytes}
    (hne : ascii yes ≠ ascii no) (hreason : reason = reason')
    (h : answer what b yes no reason = answer what b' yes no reason') : b = b' := by
  subst hreason
  have hanswer := List.append_cancel_left (List.append_cancel_right (List.append_cancel_right h))
  cases b <;> cases b'
  · rfl
  · exact absurd hanswer.symm hne
  · exact absurd hanswer hne
  · rfl

end Explanation

/-! ## Explanations -/

namespace ExplainCall

open Explanation

/-- Calls that are explained alike: of the factors, only the reasons against are told, and of the
check, only its reason and, unless the activation failed, its verdict. -/
def Alike : ExplainCall → ExplainCall → Prop
  | compatibility r, compatibility r' => r.compatible = r'.compatible ∧ r.summary = r'.summary ∧
      factorReasons r.factors = factorReasons r'.factors
  | readiness ready state reason, readiness ready' state' reason' =>
      ready = ready' ∧ state = state' ∧ reason = reason'
  | activation ok check, activation ok' check' => ok = ok' ∧ check.reason = check'.reason ∧
      (ok = true → check.authorized = check'.authorized)
  | reuse permitted reason, reuse permitted' reason' => permitted = permitted' ∧ reason = reason'
  | migration selected reason, migration selected' reason' =>
      selected = selected' ∧ reason = reason'
  | eviction permitted reason, eviction permitted' reason' =>
      permitted = permitted' ∧ reason = reason'
  | composition valid summary, composition valid' summary' => valid = valid' ∧ summary = summary'
  | staleAuthority check, staleAuthority check' =>
      check.authorized = check'.authorized ∧ check.reason = check'.reason
  | invalidation trigger reason, invalidation trigger' reason' =>
      trigger = trigger' ∧ reason = reason'
  | _, _ => False

theorem explain_make (x : ExplainCall) :
    x.explain = make x.explain.kind x.explain.ok x.explain.text x.explain.reasons := by
  cases x <;> rfl

theorem alike_of_told {x y : ExplainCall} (hkind : x.explain.kind = y.explain.kind)
    (hok : x.explain.ok = y.explain.ok) (htext : x.explain.text = y.explain.text)
    (hreasons : x.explain.reasons = y.explain.reasons) : Alike x y := by
  cases x with
  | compatibility r =>
    cases y with
    | compatibility r' => exact ⟨hok, htext, hreasons⟩
    | _ => cases hkind
  | readiness ready state reason =>
    cases y with
    | readiness ready' state' reason' =>
      obtain rfl : ready = ready' := hok
      obtain rfl : reason = reason' := (List.cons.inj hreasons).1
      have hstate := List.append_cancel_left (List.append_cancel_right
        (List.append_cancel_right (List.append_cancel_right htext)))
      exact ⟨rfl, hstate, rfl⟩
    | _ => cases hkind
  | activation ok check =>
    cases y with
    | activation ok' check' =>
      have hreason : check.reason = check'.reason := (List.cons.inj hreasons).1
      obtain rfl := answer_inj (by decide) hreason htext
      refine ⟨rfl, hreason, fun hgranted => ?_⟩
      rw [hgranted] at hok
      simpa [explain, explainActivation, make] using hok
    | _ => cases hkind
  | reuse permitted reason =>
    cases y with
    | reuse permitted' reason' => exact ⟨hok, (List.cons.inj hreasons).1⟩
    | _ => cases hkind
  | migration selected reason =>
    cases y with
    | migration selected' reason' => exact ⟨hok, (List.cons.inj hreasons).1⟩
    | _ => cases hkind
  | eviction permitted reason =>
    cases y with
    | eviction permitted' reason' => exact ⟨hok, (List.cons.inj hreasons).1⟩
    | _ => cases hkind
  | composition valid summary =>
    cases y with
    | composition valid' summary' => exact ⟨hok, (List.cons.inj hreasons).1⟩
    | _ => cases hkind
  | staleAuthority check =>
    cases y with
    | staleAuthority check' => exact ⟨hok, (List.cons.inj hreasons).1⟩
    | _ => cases hkind
  | invalidation trigger reason =>
    cases y with
    | invalidation trigger' reason' =>
      obtain rfl : reason = reason' := (List.cons.inj hreasons).1
      have htrigger := List.append_cancel_left (List.append_cancel_right
        (List.append_cancel_right htext))
      exact ⟨htrigger, rfl⟩
    | _ => cases hkind

theorem Alike.explain_eq {x y : ExplainCall} (h : Alike x y) : x.explain = y.explain := by
  cases x with
  | compatibility r =>
    cases y with
    | compatibility r' =>
      obtain ⟨hcompatible, hsummary, hreasons⟩ := h
      simp only [explain, explainCompatibility, hcompatible, hsummary, hreasons]
    | _ => exact h.elim
  | readiness ready state reason =>
    cases y with
    | readiness ready' state' reason' =>
      obtain ⟨rfl, rfl, rfl⟩ := h
      rfl
    | _ => exact h.elim
  | activation ok check =>
    cases y with
    | activation ok' check' =>
      obtain ⟨rfl, hreason, hauthorized⟩ := h
      have hok : (ok && check.authorized) = (ok && check'.authorized) := by
        cases ok with
        | true => rw [hauthorized rfl]
        | false => rfl
      simp only [explain, explainActivation, hreason, hok]
    | _ => exact h.elim
  | reuse permitted reason =>
    cases y with
    | reuse permitted' reason' =>
      obtain ⟨rfl, rfl⟩ := h
      rfl
    | _ => exact h.elim
  | migration selected reason =>
    cases y with
    | migration selected' reason' =>
      obtain ⟨rfl, rfl⟩ := h
      rfl
    | _ => exact h.elim
  | eviction permitted reason =>
    cases y with
    | eviction permitted' reason' =>
      obtain ⟨rfl, rfl⟩ := h
      rfl
    | _ => exact h.elim
  | composition valid summary =>
    cases y with
    | composition valid' summary' =>
      obtain ⟨rfl, rfl⟩ := h
      rfl
    | _ => exact h.elim
  | staleAuthority check =>
    cases y with
    | staleAuthority check' =>
      obtain ⟨hauthorized, hreason⟩ := h
      simp only [explain, explainStaleAuthority, hauthorized, hreason]
    | _ => exact h.elim
  | invalidation trigger reason =>
    cases y with
    | invalidation trigger' reason' =>
      obtain ⟨rfl, rfl⟩ := h
      rfl
    | _ => exact h.elim

theorem explain_json_iff {x y : ExplainCall} : x.explain.json = y.explain.json ↔ Alike x y := by
  constructor
  · intro h
    have hx := congrArg Explanation.json x.explain_make
    have hy := congrArg Explanation.json y.explain_make
    have hmake := congrArg (· ++ []) (hx.symm.trans (h.trans hy))
    obtain ⟨⟨hkind, hok, htext, hreasons⟩, -⟩ := make_told hmake
    exact alike_of_told hkind hok htext hreasons
  · intro h
    rw [h.explain_eq]

end ExplainCall

/-- Whatever the strings are, and whatever stands behind it, the text of a report tells its verdict,
summary and factors, that of a check the check, and that of an explanation the call that made it,
as far as the call is explained at all. -/
theorem explanations_faithful :
    (∀ (r r' : CompatibilityReport) (u v : Bytes), r.toJson ++ u = r'.toJson ++ v →
      r.compatible = r'.compatible ∧ r.summary = r'.summary ∧ r.factors = r'.factors ∧ u = v) ∧
    (∀ (c c' : AuthorityCheck) (u v : Bytes), c.toJson ++ u = c'.toJson ++ v → c = c' ∧ u = v) ∧
    ∀ x y : ExplainCall, x.explain.json = y.explain.json ↔ x.Alike y :=
  ⟨fun _ _ _ _ h => report_told h, delimits_check, fun _ _ => ExplainCall.explain_json_iff⟩

/-- Two checks whose reason is a control character, which makes their texts no JSON. -/
theorem explanations_faithful_sample :
    (⟨.staleBoot, [1]⟩ : AuthorityCheck).toJson ≠ (⟨.staleEpoch, [1]⟩ : AuthorityCheck).toJson := by
  intro h
  obtain ⟨-, hcheck, -⟩ := explanations_faithful
  have hsame := hcheck ⟨.staleBoot, [1]⟩ ⟨.staleEpoch, [1]⟩ [] [] (congrArg (· ++ []) h)
  cases hsame.1

end AdapterFabric
