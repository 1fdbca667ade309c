import AdapterFabric.Fabric.Acceptance
import AdapterFabric.Identity.Generator

/-!
# AdapterFabric.Fabric.Restart

Processes that follow one another. Each starts with a fresh Fabric and with the generator in its
built-in state, and recovers what the last one saved.

`published_kept_iff`: a published composition stays as it was exactly when no process publishes
another one at a position of the generator that yields its id again, and no recovery within a
process loses it.
-/

namespace AdapterFabric

open Std

namespace Fabric

/-- `c'` is the publication `c`, as far as anyone relies on it. -/
def SamePublication (c c' : Composition) : Prop :=
  c'.id = c.id ∧ c'.members = c.members ∧ c'.policy = c.policy ∧ c'.generation = c.generation ∧
    c'.digest = c.digest

instance (c c' : Composition) : Decidable (SamePublication c c') :=
  inferInstanceAs (Decidable (_ ∧ _ ∧ _ ∧ _ ∧ _))

/-- The Fabric holds the publication `c` under its id. -/
def Keeps (f : Fabric) (c : Composition) : Prop :=
  ∃ c', f.compositions[c.id.str]? = some c' ∧ SamePublication c c'

instance (f : Fabric) (c : Composition) : Decidable (f.Keeps c) :=
  decidable_of_iff (f.compositions[c.id.str]?.any (fun c' => SamePublication c c') = true) (by
    simp only [Option.any_eq_true, decide_eq_true_eq, Keeps])

/-- The snapshot contains the publication `c`. -/
def contains (s : FabricSnapshot) (c : Composition) : Bool :=
  s.compositions.any fun c' => SamePublication c c'

/-- A composition that was published, and the position at which its process drew the id. -/
structure Publication where
  composition : Composition
  position : Nat

/-- The id that a process draws when it has drawn `n` numbers. -/
def idAt (n : Nat) : CompositionId := (Id.generate (Rng.instanceInit.after n)).1

/-- What is published for the list now is `c` once more. -/
def Repeats (f : Fabric) (ordered : List AdapterId) (policy : Bytes) (c : Composition) : Prop :=
  (f.listed ordered).map CompositionBuilder.memberOf = c.members ∧ policy = c.policy ∧
    f.nextCompositionGen = c.generation

/-- The process that runs now, what the last one left on disk, and all that was ever published, with
what of it the process must still hold. -/
structure Lineage where
  fabric : Fabric
  rng : Rng := .instanceInit
  disk : Option Bytes := none
  published : List Publication := []
  owed : List Publication := []

namespace Lineage

inductive Action where
  | publish (ordered : List AdapterId) (policy : Bytes)
  | create (adapter : AdapterId) (worker : WorkerId) (boot : WorkerBootId) (device : DeviceId)
      (bytes : UInt64)
  /-- Any other draw from the generator. -/
  | draw
  /-- A recovery in the middle of a process. -/
  | recover (b : Bytes)
  | other (op : Op)
  | save
  /-- The process ends, and the next one starts with the Fabric `f`. -/
  | restart (f : Fabric)

/-- The operation is none of the above. -/
def plain : Op → Bool
  | .publishComposition _ _ _ => false
  | .createInstance _ _ _ _ _ _ => false
  | .recover _ => false
  | _ => true

/-- A step of the process; `none` where it cannot be taken. -/
def act (l : Lineage) : Action → Option Lineage
  | .publish ordered policy =>
    match l.fabric.publishComposition ordered policy l.rng with
    | (.error _, fabric, rng) => some { l with fabric, rng }
    | (.ok c, fabric, rng) =>
      let p := ⟨c, l.rng.position⟩
      some { l with fabric, rng, published := p :: l.published, owed := p :: l.owed }
  | .create adapter worker boot device bytes =>
    let (_, fabric, rng) := l.fabric.createInstance adapter worker boot device bytes l.rng
    some { l with fabric, rng }
  | .draw => some { l with rng := l.rng.next.2 }
  | .recover b =>
    match deserializeSnapshot b with
    | .error _ => some l
    | .ok s => some { l with
        fabric := l.fabric.recover s
        owed := l.owed ++ l.published.filter fun p => contains s p.composition }
  | .other op => if plain op then some { l with fabric := op.apply l.fabric } else none
  | .save => some { l with disk := some (serializeSnapshot l.fabric.snapshot) }
  | .restart f =>
    match l.disk with
    | none => none
    | some b =>
      match deserializeSnapshot b with
      | .error _ => none
      | .ok s => some { l with
          fabric := f.recover s
          rng := .instanceInit
          owed := l.published.filter fun p => contains s p.composition }

/-- Every composition that the process must hold is there. -/
def Kept (l : Lineage) : Prop := ∀ p ∈ l.owed, l.fabric.Keeps p.composition

instance (l : Lineage) : Decidable l.Kept := inferInstanceAs (Decidable (∀ p ∈ l.owed, _))

/-- A list that can be published is not published at a position that yields the id of a publication
that must be held, unless as that one again; and a recovery brings each of them back. -/
def Spares (l : Lineage) : Action → Prop
  | .publish ordered policy => l.fabric.Publishable ordered → ∀ p ∈ l.owed,
      idAt p.position = idAt l.rng.position → l.fabric.Repeats ordered policy p.composition
  | .recover b => ∀ s, deserializeSnapshot b = .ok s →
      ∀ p ∈ l.owed, contains s p.composition = true
  | _ => True

end Lineage

/-! ## Steps -/

theorem contains_iff {s : FabricSnapshot} {c : Composition} :
    contains s c = true ↔ ∃ c' ∈ s.compositions, SamePublication c c' := by
  simp only [contains, List.any_eq_true, decide_eq_true_eq]

/-- What an accepted snapshot contains is there after its recovery, and nothing else. -/
theorem keeps_recover_iff {f : Fabric} {s : FabricSnapshot} (h : s.WellFormed) {c : Composition} :
    (f.recover s).Keeps c ↔ contains s c = true := by
  have hget (c' : Composition) :
      (f.recover s).compositions[c.id.str]? = some c' ↔ c' ∈ s.compositions ∧ c'.id = c.id := by
    show (Table.insertAll (fun c : Composition => c.id.str) s.compositions :
      StrMap _)[c.id.str]? = some c' ↔ _
    rw [Table.get_insertAll (nodup_str_iff.mpr h.compositions_nodup), Id.str_eq_iff]
  rw [contains_iff]
  constructor
  · rintro ⟨c', hc', hsame⟩
    exact ⟨c', ((hget c').mp hc').1, hsame⟩
  · rintro ⟨c', hc', hsame⟩
    exact ⟨c', (hget c').mpr ⟨hc', hsame.1⟩, hsame⟩

theorem SamePublication.refl (c : Composition) : SamePublication c c := ⟨rfl, rfl, rfl, rfl, rfl⟩

/-- The id and the digest of a publication follow from the rest. -/
structure Publication.Sound (p : Publication) : Prop where
  id : p.composition.id = idAt p.position
  digest : p.composition.digest =
    CompositionBuilder.computeDigest p.composition.members p.composition.policy

theorem generate_eq_idAt (rng : Rng) : (Id.generate rng).1 = idAt rng.position := by
  rw [idAt, Rng.after_position]

theorem idAt_mod (n : Nat) : idAt (n % 2 ^ 64) = idAt n := by
  rw [idAt, idAt, (Rng.after_eq_iff _).mpr (Nat.mod_modEq n _)]

section PublishedAs

variable {f : Fabric} {ordered : List AdapterId} {policy : Bytes} {rng : Rng} {c : Composition}

theorem PublishedAs.sound (h : f.PublishedAs ordered policy rng c) :
    Publication.Sound ⟨c, rng.position⟩ :=
  ⟨h.id.trans (generate_eq_idAt rng), h.digest⟩

/-- Under the same id, the same publication is one with the same members, policy and generation. -/
theorem PublishedAs.same_iff (h : f.PublishedAs ordered policy rng c) {p : Publication}
    (hp : p.Sound) (hid : p.composition.id = c.id) :
    SamePublication p.composition c ↔ f.Repeats ordered policy p.composition := by
  have hmembers : c.members = (f.listed ordered).map CompositionBuilder.memberOf := h.members
  constructor
  · rintro ⟨-, hm, hpol, hgen, -⟩
    exact ⟨hmembers.symm.trans hm, h.policy.symm.trans hpol, h.generation.symm.trans hgen⟩
  · rintro ⟨hm, hpol, hgen⟩
    have hm : c.members = p.composition.members := hmembers.trans hm
    have hpol : c.policy = p.composition.policy := h.policy.trans hpol
    refine ⟨hid.symm, hm, hpol, h.generation.trans hgen, ?_⟩
    rw [h.digest, hm, hpol, hp.digest]

end PublishedAs

namespace Lineage

theorem plain_compositions {op : Op} (h : plain op = true) (f : Fabric) :
    (op.apply f).compositions = f.compositions := by
  refine (compositions_frame ?_ ?_ f).1
  · rintro ordered policy rng rfl
    cases h
  · cases op with
    | recover s => cases h
    | _ => rfl

theorem keeps_congr {f f' : Fabric} (h : f'.compositions = f.compositions) {c : Composition} :
    f'.Keeps c ↔ f.Keeps c := by
  rw [Keeps, Keeps, h]

theorem keeps_insert {f f' : Fabric} {c c' : Composition}
    (h : f'.compositions = f.compositions.insert c'.id.str c') :
    f'.Keeps c ↔ if c.id = c'.id then SamePublication c c' else f.Keeps c := by
  unfold Keeps
  rw [h, Table.get_insert]
  by_cases hid : c.id = c'.id
  · rw [if_pos hid, if_pos (congrArg Id.str hid.symm)]
    constructor
    · rintro ⟨c'', hc'', hsame⟩
      obtain rfl := Option.some.inj hc''
      exact hsame
    · intro hsame
      exact ⟨c', rfl, hsame⟩
  · rw [if_neg hid, if_neg fun e => hid (Id.str_inj e).symm]

/-- The adapters are found under their ids, and what must be held was published. -/
structure Sound (l : Lineage) : Prop where
  adapters : Table.Keyed (fun d : AdapterDescriptor => d.id.str) l.fabric.adapters
  published : ∀ p ∈ l.published, p.Sound
  owed : ∀ p ∈ l.owed, p ∈ l.published

section Step

variable {l l' : Lineage}

theorem sound_publish {ordered : List AdapterId} {policy : Bytes} (hl : l.Sound)
    (h : l.act (.publish ordered policy) = some l') : l'.Sound := by
  cases hpub : l.fabric.publishComposition ordered policy l.rng with
  | mk result after =>
    have hspec := publish_spec hl.adapters ordered policy l.rng
    have hadapters := adapters_keyed_step (.publishComposition ordered policy l.rng) hl.adapters
    simp only [Op.apply, hpub] at hadapters
    rw [hpub] at hspec
    simp only [act, hpub] at h
    rcases hspec with ⟨_, e, herr, _⟩ | ⟨_, c, hc, hok, _⟩
    · obtain rfl : result = .error e := herr
      obtain rfl := Option.some.inj h
      exact ⟨hadapters, hl.published, hl.owed⟩
    · obtain rfl : result = .ok c := hok
      obtain rfl := Option.some.inj h
      refine ⟨hadapters, List.forall_mem_cons.mpr ⟨hc.sound, hl.published⟩, fun p hp => ?_⟩
      rcases List.mem_cons.mp hp with rfl | hp
      · exact List.mem_cons_self
      · exact List.mem_cons_of_mem _ (hl.owed p hp)

theorem sound_recover {b : Bytes} (hl : l.Sound) (h : l.act (.recover b) = some l') :
    l'.Sound := by
  cases hread : deserializeSnapshot b with
  | error e =>
    simp only [act, hread] at h
    obtain rfl := Option.some.inj h
    exact hl
  | ok s =>
    simp only [act, hread] at h
    obtain rfl := Option.some.inj h
    refine ⟨(recover_tablesKeyed l.fabric s).adapters, hl.published, fun p hp => ?_⟩
    rcases List.mem_append.mp hp with hp | hp
    · exact hl.owed p hp
    · exact List.mem_of_mem_filter hp

theorem sound_restart {f : Fabric} (hl : l.Sound) (h : l.act (.restart f) = some l') :
    l'.Sound := by
  cases hdisk : l.disk with
  | none =>
    simp only [act, hdisk] at h
    cases h
  | some b =>
    cases hread : deserializeSnapshot b with
    | error e =>
      simp only [act, hdisk, hread] at h
      cases h
    | ok s =>
      simp only [act, hdisk, hread] at h
      obtain rfl := Option.some.inj h
      exact ⟨(recover_tablesKeyed f s).adapters, hl.published,
        fun p hp => List.mem_of_mem_filter hp⟩

theorem sound_step {a : Action} (hl : l.Sound) (h : l.act a = some l') : l'.Sound := by
  cases a with
  | publish ordered policy => exact sound_publish hl h
  | create adapter worker boot device bytes =>
    have hadapters := adapters_keyed_step
      (.createInstance adapter worker boot device bytes l.rng) hl.adapters
    obtain rfl := Option.some.inj h
    exact ⟨hadapters, hl.published, hl.owed⟩
  | draw =>
    obtain rfl := Option.some.inj h
    exact ⟨hl.adapters, hl.published, hl.owed⟩
  | recover b => exact sound_recover hl h
  | other op =>
    by_cases hplain : plain op = true
    · simp only [act, if_pos hplain] at h
      obtain rfl := Option.some.inj h
      exact ⟨adapters_keyed_step op hl.adapters, hl.published, hl.owed⟩
    · simp only [act, if_neg hplain] at h
      cases h
  | save =>
    obtain rfl := Option.some.inj h
    exact ⟨hl.adapters, hl.published, hl.owed⟩
  | restart f => exact sound_restart hl h

theorem kept_publish {ordered : List AdapterId} {policy : Bytes} (hl : l.Sound) (hkept : l.Kept)
    (h : l.act (.publish ordered policy) = some l') :
    l'.Kept ↔ l.Spares (.publish ordered policy) := by
  cases hpub : l.fabric.publishComposition ordered policy l.rng with
  | mk result after =>
    have hspec := publish_spec hl.adapters ordered policy l.rng
    rw [hpub] at hspec
    simp only [act, hpub] at h
    rcases hspec with ⟨hno, e, herr, he⟩ | ⟨hyes, c, hc, hok, he⟩
    · -- a refused list publishes nothing
      obtain rfl : result = .error e := herr
      obtain rfl := Option.some.inj h
      refine iff_of_true (fun p hp => ?_) fun hyes => absurd hyes hno
      exact (keeps_congr (congrArg compositions he)).mpr (hkept p hp)
    · obtain rfl : result = .ok c := hok
      obtain rfl := Option.some.inj h
      have hkeeps (c₀ : Composition) : after.1.Keeps c₀ ↔
          if c₀.id = c.id then SamePublication c₀ c else l.fabric.Keeps c₀ :=
        keeps_insert (congrArg compositions he)
      have hid (p : Publication) (hp : p ∈ l.owed) :
          p.composition.id = c.id ↔ idAt p.position = idAt l.rng.position := by
        rw [(hl.published p (hl.owed p hp)).id, hc.sound.id]
      constructor
      · intro hkept' _ p hp hsame
        have hthere := (hkeeps p.composition).mp (hkept' p (List.mem_cons_of_mem _ hp))
        rw [if_pos ((hid p hp).mpr hsame)] at hthere
        exact (hc.same_iff (hl.published p (hl.owed p hp)) ((hid p hp).mpr hsame)).mp hthere
      · intro hspares p hp
        refine (hkeeps p.composition).mpr ?_
        rcases List.mem_cons.mp hp with rfl | hp
        · rw [if_pos rfl]
          exact .refl c
        · by_cases hsame : p.composition.id = c.id
          · rw [if_pos hsame]
            exact (hc.same_iff (hl.published p (hl.owed p hp)) hsame).mpr
              (hspares hyes p hp ((hid p hp).mp hsame))
          · rw [if_neg hsame]
            exact hkept p hp

theorem kept_recover {b : Bytes} (hkept : l.Kept) (h : l.act (.recover b) = some l') :
    l'.Kept ↔ l.Spares (.recover b) := by
  cases hread : deserializeSnapshot b with
  | error e =>
    simp only [act, hread] at h
    simp only [Spares, hread]
    obtain rfl := Option.some.inj h
    exact ⟨fun _ s hs => absurd hs (by simp), fun _ => hkept⟩
  | ok s =>
    simp only [act, hread] at h
    simp only [Spares, hread]
    obtain rfl := Option.some.inj h
    have hkeeps (c : Composition) : (l.fabric.recover s).Keeps c ↔ contains s c = true :=
      keeps_recover_iff (wellFormed_of_deserialize hread)
    constructor
    · intro hkept' s' hs' p hp
      obtain rfl := Except.ok.inj hs'
      exact (hkeeps p.composition).mp (hkept' p (List.mem_append_left _ hp))
    · intro hspares p hp
      refine (hkeeps p.composition).mpr ?_
      rcases List.mem_append.mp hp with hp | hp
      · exact hspares s rfl p hp
      · exact (List.mem_filter.mp hp).2

theorem kept_restart {f : Fabric} (h : l.act (.restart f) = some l') : l'.Kept := by
  cases hdisk : l.disk with
  | none =>
    simp only [act, hdisk] at h
    cases h
  | some b =>
    cases hread : deserializeSnapshot b with
    | error e =>
      simp only [act, hdisk, hread] at h
      cases h
    | ok s =>
      simp only [act, hdisk, hread] at h
      obtain rfl := Option.some.inj h
      intro p hp
      exact (keeps_recover_iff (wellFormed_of_deserialize hread)).mpr (List.mem_filter.mp hp).2

theorem kept_step {a : Action} (hl : l.Sound) (hkept : l.Kept) (h : l.act a = some l') :
    l'.Kept ↔ l.Spares a := by
  cases a with
  | publish ordered policy => exact kept_publish hl hkept h
  | create adapter worker boot device bytes =>
    cases hcreate : l.fabric.createInstance adapter worker boot device bytes l.rng with
    | mk result after =>
      have hcases := createInstance_cases l.fabric adapter worker boot device bytes l.rng
      rw [hcreate] at hcases
      simp only [act, hcreate] at h
      obtain rfl := Option.some.inj h
      have hsame : after.1.compositions = l.fabric.compositions := by
        rcases hcases with he | ⟨inst, record, ar, _, _, he⟩
        · exact congrArg compositions he
        · exact (congrArg compositions he :)
      exact ⟨fun _ => trivial, fun _ p hp => (keeps_congr hsame).mpr (hkept p hp)⟩
  | draw =>
    obtain rfl := Option.some.inj h
    exact ⟨fun _ => trivial, fun _ p hp => hkept p hp⟩
  | recover b => exact kept_recover hkept h
  | other op =>
    by_cases hplain : plain op = true
    · simp only [act, if_pos hplain] at h
      obtain rfl := Option.some.inj h
      refine ⟨fun _ => trivial, fun _ p hp => ?_⟩
      exact (keeps_congr (plain_compositions hplain l.fabric)).mpr (hkept p hp)
    · simp only [act, if_neg hplain] at h
      cases h
  | save =>
    obtain rfl := Option.some.inj h
    exact ⟨fun _ => trivial, fun _ => hkept⟩
  | restart f => exact ⟨fun _ => trivial, fun _ => kept_restart h⟩

end Step

/-! ## Runs -/

/-- The first process, before it does anything. -/
def first (f : Fabric) : Lineage where
  fabric := f

theorem sound_first {f : Fabric} (hf : Fresh f) : (first f).Sound where
  adapters := run_adapters_keyed hf []
  published := by simp [first]
  owed := by simp [first]

/-- Along a run of processes every published composition stays as it was, in the process that
published it and in every process that recovered it, exactly when each step spares those there are.
A position counts the numbers drawn since the process began, and the ids come again with it. -/
theorem published_kept_iff {f₀ : Fabric} (hf : Fresh f₀) {path : List (Action × Lineage)}
    (hpath : Run.Each (fun l a l' => l.act a = some l') (first f₀) path) :
    ((∀ x ∈ path, x.2.Kept) ↔ Run.Each (fun l a _ => l.Spares a) (first f₀) path) ∧
      ∀ n, (Rng.instanceInit.after n).position = n % 2 ^ 64 ∧ idAt (n % 2 ^ 64) = idAt n :=
  ⟨hpath.always_iff (I := Sound) (P := Kept) (fun hstep hl => sound_step hl hstep)
      (fun hstep hl hkept => kept_step hl hkept hstep) (sound_first hf) (by simp [Kept, first]),
    fun n => ⟨Rng.position_after n, idAt_mod n⟩⟩

/-! ### Two processes that publish one adapter each -/

def otherAdapter : AdapterDescriptor := { sampleAdapter with id := ⟨.ofBytes [9]⟩ }

def savingActions : List Action := [
  .other (.registerAdapter sampleAdapter),
  .other (.registerAdapter otherAdapter),
  .publish [sampleAdapter.id] (ascii "default"),
  .save]

/-- The second process draws a number before it publishes, and so another id. -/
def sparingActions : List Action :=
  savingActions ++ [.restart .default, .draw, .publish [otherAdapter.id] (ascii "default")]

theorem published_kept_iff_sample :
    ∃ path : List (Action × Lineage), path.map Prod.fst = sparingActions ∧
      Run.Each (fun l a _ => l.Spares a) (first .default) path := by
  obtain ⟨path, hpath, hactions, hkept⟩ := Run.exists_checked act (fun _ _ l => decide l.Kept)
    sparingActions (first .default) (by decide +kernel) (by decide +kernel)
  refine ⟨path, hactions, (published_kept_iff .default hpath).1.mp fun x hx => ?_⟩
  exact of_decide_eq_true (Run.each_target.mp hkept x hx)

/-- The second process draws the same id as the first, and replaces what it recovered. -/
theorem published_kept_counterexample :
    ∃ l, Run.tryExec act (savingActions ++ [.restart .default,
      .publish [otherAdapter.id] (ascii "default")]) (first .default) = some l ∧ ¬ l.Kept :=
  Run.exists_tryExec (by decide +kernel)

end Lineage

end Fabric

end AdapterFabric
