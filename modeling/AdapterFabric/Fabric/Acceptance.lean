import AdapterFabric.Fabric.Currency
import AdapterFabric.Fabric.Publishing
import AdapterFabric.Fabric.Recovery

/-!
# AdapterFabric.Fabric.Acceptance

Which member lists `publish_composition` accepts (`fabric.cpp`, `composition.cpp`).

* `addAll_eq_ok_iff`, `build_isOk_iff`: the lists that the two loops let through.
* `publish_exact`: a publish succeeds exactly for a publishable list; then it stores the composition
  of its members, and otherwise it changes nothing.
-/

namespace AdapterFabric

open Std

namespace CompositionBuilder

/-- The names of all target modules. -/
def moduleNames (ds : List AdapterDescriptor) : List Bytes :=
  ds.flatMap fun d => d.targets.map (·.name)

theorem claimModules_eq_ok_iff {ts : List TargetModule} {seen seen' : List Bytes} :
    claimModules ts seen = .ok seen' ↔ (ts.map (·.name)).Nodup ∧
      (∀ n ∈ ts.map (·.name), n ∉ seen) ∧ seen' = (ts.map (·.name)).reverse ++ seen := by
  induction ts generalizing seen with
  | nil =>
    simp only [claimModules, Except.ok.injEq, List.map_nil, List.nodup_nil, List.not_mem_nil,
      List.reverse_nil, List.nil_append, true_and, false_imp_iff, implies_true]
    exact eq_comm
  | cons t ts ih =>
    unfold claimModules
    by_cases ht : t.name ∈ seen
    · rw [if_pos ht]
      refine iff_of_false nofun fun h => h.2.1 t.name (by simp) ht
    · rw [if_neg ht, ih]
      rw [List.map_cons, List.nodup_cons, List.forall_mem_cons, List.reverse_cons,
        List.append_assoc, List.singleton_append]
      simp only [List.mem_cons, not_or]
      constructor
      · rintro ⟨hnodup, hnew, rfl⟩
        exact ⟨⟨fun hmem => (hnew _ hmem).1 rfl, hnodup⟩, ⟨ht, fun n hn => (hnew n hn).2⟩, rfl⟩
      · rintro ⟨⟨hfirst, hnodup⟩, ⟨-, hnew⟩, rfl⟩
        exact ⟨hnodup, fun n hn => ⟨fun e => hfirst (e ▸ hn), hnew n hn⟩, rfl⟩

/-- The descriptor has a generation and the base model of the builder. -/
structure Fits (b : CompositionBuilder) (d : AdapterDescriptor) : Prop where
  generation : d.generation ≠ .none
  base : d.baseModel = b.base
  rev : d.baseModelRevision = b.rev

theorem buildLoop_cons {b : CompositionBuilder} {d : AdapterDescriptor}
    {rest : List (CompositionMember × AdapterDescriptor)} {seenIds seenModules : List Bytes}
    {total : UInt64} (hd : b.Fits d) (hid : d.id.str ∉ seenIds) :
    b.buildLoop ((memberOf d, d) :: rest) seenIds seenModules total =
      claimModules d.targets seenModules >>= fun seen =>
        b.buildLoop rest (d.id.str :: seenIds) seen (total + d.memoryBytes) := by
  have hid : (memberOf d).adapterId.str ∉ seenIds := hid
  have hgen : ¬ (memberOf d).generation.isNone = true :=
    fun hn => hd.generation (Generation.isNone_iff.mp hn)
  have hbytes : ¬ d.memoryBytes ≠ (memberOf d).memoryBytes := not_not.mpr rfl
  rw [buildLoop, if_neg hid, if_neg hgen, if_neg (not_not.mpr hd.base), if_neg (not_not.mpr hd.rev),
    if_neg hbytes]
  rfl

/-- For members that `add` has let through, the loop of `build` only looks at the target modules. -/
theorem buildLoop_isOk_iff {b : CompositionBuilder} {ds : List AdapterDescriptor}
    (hfits : ∀ d ∈ ds, b.Fits d) (hnodup : (ds.map (·.id)).Nodup) {seenIds seenModules : List Bytes}
    {total : UInt64} (hids : ∀ d ∈ ds, d.id.str ∉ seenIds) :
    (∃ t, b.buildLoop (ds.map fun d => (memberOf d, d)) seenIds seenModules total = .ok t) ↔
      (moduleNames ds).Nodup ∧ ∀ n ∈ moduleNames ds, n ∉ seenModules := by
  induction ds generalizing seenIds seenModules total with
  | nil => simp [buildLoop, moduleNames]
  | cons d ds ih =>
    obtain ⟨hfirst, hnodup⟩ := List.nodup_cons.mp hnodup
    have hids' : ∀ e ∈ ds, e.id.str ∉ d.id.str :: seenIds := by
      intro e he hmem
      rcases List.mem_cons.mp hmem with heq | hmem
      · exact hfirst (List.mem_map.mpr ⟨e, he, Id.str_inj heq⟩)
      · exact hids e (List.mem_cons_of_mem _ he) hmem
    have hnames : moduleNames (d :: ds) = d.targets.map (·.name) ++ moduleNames ds :=
      List.flatMap_cons
    rw [List.map_cons, buildLoop_cons (hfits d (by simp)) (hids d (by simp)), hnames,
      List.nodup_append, List.forall_mem_append]
    cases hclaim : claimModules d.targets seenModules with
    | error e =>
      refine iff_of_false nofun fun h => ?_
      have hok := claimModules_eq_ok_iff.mpr ⟨h.1.1, h.2.1, rfl⟩
      rw [hclaim] at hok
      cases hok
    | ok seen =>
      obtain ⟨hnames, hnew, rfl⟩ := claimModules_eq_ok_iff.mp hclaim
      refine (ih (fun e he => hfits e (List.mem_cons_of_mem _ he)) hnodup hids').trans ?_
      simp only [List.mem_append, List.mem_reverse, not_or]
      constructor
      · rintro ⟨hrest, hsep⟩
        exact ⟨⟨hnames, hrest, fun n hn m hm heq => (hsep m hm).1 (heq ▸ hn)⟩, hnew,
          fun n hn => (hsep n hn).2⟩
      · rintro ⟨⟨-, hrest, hsep⟩, -, hold⟩
        exact ⟨hrest, fun n hn => ⟨fun hmem => hsep n hmem n hn rfl, hold n hn⟩⟩

/-- `b` with the members of `ds` behind its own. -/
def extend (b : CompositionBuilder) (ds : List AdapterDescriptor) : CompositionBuilder :=
  { b with
    members := b.members ++ ds.map memberOf
    descriptors := b.descriptors ++ ds }

theorem extend_nil (b : CompositionBuilder) : b.extend [] = b := by
  simp [extend]

theorem extend_extend (b : CompositionBuilder) (ds es : List AdapterDescriptor) :
    (b.extend ds).extend es = b.extend (ds ++ es) := by
  simp [extend, List.append_assoc]

theorem fits_extend {b : CompositionBuilder} {ds : List AdapterDescriptor}
    {d : AdapterDescriptor} : (b.extend ds).Fits d ↔ b.Fits d :=
  ⟨fun h => ⟨h.generation, h.base, h.rev⟩, fun h => ⟨h.generation, h.base, h.rev⟩⟩

theorem add_eq_ok_iff {b b' : CompositionBuilder} {d : AdapterDescriptor} :
    b.add d = .ok b' ↔ d.id ∉ b.members.map (·.adapterId) ∧ b.Fits d ∧ b' = b.extend [d] := by
  constructor
  · intro h
    obtain ⟨hnew, hgen, hbase, hrev, rfl⟩ := add_ok h
    exact ⟨hnew, ⟨hgen, hbase, hrev⟩, rfl⟩
  · rintro ⟨hnew, hfits, rfl⟩
    exact add_eq_ok hnew hfits.generation hfits.base hfits.rev

end CompositionBuilder

namespace Fabric

open CompositionBuilder

theorem addAll_eq_ok_iff {f : Fabric} {ids : List AdapterId} {b b' : CompositionBuilder} :
    f.addAll ids b = .ok b' ↔ ∃ ds, ids.map f.adapter = ds.map some ∧ (∀ d ∈ ds, b.Fits d) ∧
      (ds.map (·.id)).Nodup ∧ (∀ d ∈ ds, d.id ∉ b.members.map (·.adapterId)) ∧
      b' = b.extend ds := by
  induction ids generalizing b with
  | nil =>
    constructor
    · intro h
      cases h
      exact ⟨[], by simp [extend_nil]⟩
    · rintro ⟨ds, hds, -, -, -, rfl⟩
      obtain rfl : ds = [] := List.map_eq_nil_iff.mp hds.symm
      rw [extend_nil]
      rfl
  | cons id ids ih =>
    unfold addAll
    cases hd : f.adapter id with
    | none =>
      refine iff_of_false (fun h => ?_) ?_
      · cases h
      · rintro ⟨ds, hds, -⟩
        cases ds with
        | nil => cases hds
        | cons d ds =>
          have := (List.cons.inj hds).1
          rw [hd] at this
          cases this
    | some d =>
      rw [List.map_cons, hd]
      have hids (e : AdapterDescriptor) : e.id ∉ (b.extend [d]).members.map (·.adapterId) ↔
          e.id ∉ b.members.map (·.adapterId) ∧ e.id ≠ d.id := by
        simp only [extend, List.map_append, List.mem_append, not_or, List.map_cons, List.map_nil,
          List.mem_singleton]
        exact Iff.rfl
      constructor
      · intro h
        obtain ⟨b₁, hadd, h⟩ := bind_eq_ok.mp h
        obtain ⟨hnew, hfit, rfl⟩ := add_eq_ok_iff.mp hadd
        obtain ⟨ds, hds, hfits, hnodup, hnews, rfl⟩ := ih.mp h
        refine ⟨d :: ds, by rw [hds]; rfl, ?_, ?_, ?_, extend_extend b [d] ds⟩
        · exact List.forall_mem_cons.mpr ⟨hfit, fun e he => fits_extend.mp (hfits e he)⟩
        · refine List.nodup_cons.mpr ⟨fun hmem => ?_, hnodup⟩
          obtain ⟨e, he, heq⟩ := List.mem_map.mp hmem
          exact ((hids e).mp (hnews e he)).2 heq
        · exact List.forall_mem_cons.mpr ⟨hnew, fun e he => ((hids e).mp (hnews e he)).1⟩
      · rintro ⟨ds, hds, hfits, hnodup, hnews, rfl⟩
        cases ds with
        | nil => cases hds
        | cons e ds =>
          obtain ⟨he, htail⟩ := List.cons.inj hds
          obtain rfl := Option.some.inj he
          obtain ⟨hfirst, hnodup⟩ := List.nodup_cons.mp hnodup
          obtain ⟨hfit, hfits⟩ := List.forall_mem_cons.mp hfits
          obtain ⟨hnew, hnews⟩ := List.forall_mem_cons.mp hnews
          refine bind_eq_ok.mpr ⟨_, add_eq_ok_iff.mpr ⟨hnew, hfit, rfl⟩,
            ih.mpr ⟨ds, htail, ?_, hnodup, ?_, (extend_extend b [d] ds).symm⟩⟩
          · exact fun e he => fits_extend.mpr (hfits e he)
          · intro e he
            refine (hids e).mpr ⟨hnews e he, fun heq => ?_⟩
            exact hfirst (List.mem_map.mpr ⟨e, he, heq⟩)

/-! ## Building -/

theorem build_isOk_iff {b : CompositionBuilder} {ds : List AdapterDescriptor} (hb : b.members = [])
    (hd : b.descriptors = []) (hfits : ∀ d ∈ ds, b.Fits d) (hnodup : (ds.map (·.id)).Nodup)
    (rng : Rng) :
    (∃ c, ((b.extend ds).build rng).1 = .ok c) ↔ ds ≠ [] ∧ (moduleNames ds).Nodup := by
  have hmembers : (b.extend ds).members = ds.map memberOf := by rw [extend, hb]; rfl
  have hzip : (b.extend ds).members.zip (b.extend ds).descriptors =
      ds.map fun d => (memberOf d, d) := by
    have hz := List.zip_map' (f := memberOf) (g := id) (l := ds)
    rw [List.map_id] at hz
    rw [hmembers, extend, hd, List.nil_append, hz]
    rfl
  have hextend : ∀ d ∈ ds, (b.extend ds).Fits d := fun d hd =>
    ⟨(hfits d hd).generation, (hfits d hd).base, (hfits d hd).rev⟩
  have hloop : (∃ t, (b.extend ds).buildLoop (ds.map fun d => (memberOf d, d)) [] [] 0 = .ok t) ↔
      _ := buildLoop_isOk_iff hextend hnodup (by simp)
  unfold build
  dsimp only
  by_cases hempty : ds = []
  · subst hempty
    rw [if_pos (by rw [hmembers]; rfl)]
    exact iff_of_false nofun fun h => h.1 rfl
  · rw [if_neg (by rw [hmembers]; simpa using hempty), hzip, and_iff_right hempty]
    refine Iff.trans ?_ (hloop.trans (and_iff_left (by simp)))
    cases (b.extend ds).buildLoop (ds.map fun d => (memberOf d, d)) [] [] 0 with
    | error e => exact iff_of_false nofun nofun
    | ok total => exact iff_of_true ⟨_, rfl⟩ ⟨_, rfl⟩

/-! ## Publishing -/

/-- The descriptors of the registered adapters on a list. -/
def listed (f : Fabric) (ordered : List AdapterId) : List AdapterDescriptor :=
  ordered.filterMap f.adapter

/-- What `publish_composition` asks of a list. -/
structure Publishable (f : Fabric) (ordered : List AdapterId) : Prop where
  nonempty : ordered ≠ []
  registered : ∀ id ∈ ordered, ∃ d, f.adapter id = some d
  nodup : ordered.Nodup
  base : ∀ d ∈ f.listed ordered, ∀ e ∈ f.listed ordered,
    d.baseModel = e.baseModel ∧ d.baseModelRevision = e.baseModelRevision
  generation : ∀ d ∈ f.listed ordered, d.generation ≠ .none
  modules : (moduleNames (f.listed ordered)).Nodup

/-- The composition that is published for a list. -/
structure PublishedAs (f : Fabric) (ordered : List AdapterId) (policy : Bytes) (rng : Rng)
    (c : Composition) : Prop where
  id : c.id = (Id.generate rng).1
  members : c.members = (f.listed ordered).map fun d =>
    ⟨d.id, d.revision, d.generation, d.memoryBytes, d.kind⟩
  generation : c.generation = f.nextCompositionGen
  policy : c.policy = policy
  total : c.totalMemoryBytes = BinReader.memberTotal c.members
  digest : c.digest = computeDigest c.members c.policy

section Keyed

variable {f : Fabric} (hkeyed : Table.Keyed (fun d : AdapterDescriptor => d.id.str) f.adapters)

theorem listed_of_map {ids : List AdapterId} {ds : List AdapterDescriptor}
    (h : ids.map f.adapter = ds.map some) : f.listed ids = ds := by
  have hmap := congrArg (List.filterMap id) h
  simpa [List.filterMap_map, listed] using hmap

theorem listed_cons {id : AdapterId} {d : AdapterDescriptor} (h : f.adapter id = some d)
    (ids : List AdapterId) : f.listed (id :: ids) = d :: f.listed ids :=
  List.filterMap_cons_some h

theorem map_listed {ids : List AdapterId} (h : ∀ id ∈ ids, ∃ d, f.adapter id = some d) :
    ids.map f.adapter = (f.listed ids).map some := by
  induction ids with
  | nil => rfl
  | cons id ids ih =>
    obtain ⟨d, hd⟩ := h id (by simp)
    rw [List.map_cons, ih fun i hi => h i (List.mem_cons_of_mem _ hi), listed_cons hd, hd]
    rfl

include hkeyed in
theorem listed_ids {ids : List AdapterId} (h : ∀ id ∈ ids, ∃ d, f.adapter id = some d) :
    (f.listed ids).map (·.id) = ids := by
  induction ids with
  | nil => rfl
  | cons id ids ih =>
    obtain ⟨d, hd⟩ := h id (by simp)
    rw [listed_cons hd, List.map_cons, Id.str_inj (hkeyed _ _ hd)]
    exact congrArg _ (ih fun i hi => h i (List.mem_cons_of_mem _ hi))

include hkeyed in
/-- A publishable list is one that the builder takes, and builds. -/
theorem publishable_iff {id : AdapterId} {ids : List AdapterId} {first : AdapterDescriptor}
    (hfirst : f.adapter id = some first) {b : CompositionBuilder} (hb : b.members = [])
    (hbase : b.base = first.baseModel) (hrev : b.rev = first.baseModelRevision) :
    f.Publishable (id :: ids) ↔ f.addAll (id :: ids) b = .ok (b.extend (f.listed (id :: ids))) ∧
      (moduleNames (f.listed (id :: ids))).Nodup := by
  rw [addAll_eq_ok_iff]
  constructor
  · intro h
    have hmem : first ∈ f.listed (id :: ids) := by rw [listed_cons hfirst]; simp
    refine ⟨⟨_, map_listed h.registered, fun d hd => ?_, ?_, by simp [hb], rfl⟩, h.modules⟩
    · have hd' := h.base d hd first hmem
      exact ⟨h.generation d hd, by rw [hbase]; exact hd'.1, by rw [hrev]; exact hd'.2⟩
    · rw [listed_ids hkeyed h.registered]
      exact h.nodup
  · rintro ⟨⟨ds, hds, hfits, hnodup, -, -⟩, hmodules⟩
    have hlisted := listed_of_map hds
    have hreg : ∀ i ∈ id :: ids, ∃ d, f.adapter i = some d := by
      intro i hi
      have := List.mem_map_of_mem (f := f.adapter) hi
      rw [hds] at this
      obtain ⟨d, -, hd⟩ := List.mem_map.mp this
      exact ⟨d, hd.symm⟩
    refine ⟨List.cons_ne_nil _ _, hreg, ?_, ?_, ?_, hmodules⟩
    · rw [← listed_ids hkeyed hreg, hlisted]
      exact hnodup
    · rw [hlisted]
      intro d hd e he
      exact ⟨(hfits d hd).base.trans (hfits e he).base.symm,
        (hfits d hd).rev.trans (hfits e he).rev.symm⟩
    · rw [hlisted]
      exact fun d hd => (hfits d hd).generation

include hkeyed in
/-- A publish fails and changes nothing, or the list is publishable and its composition is stored
under the next generation. -/
theorem publish_spec (ordered : List AdapterId) (policy : Bytes) (rng : Rng) :
    (¬ f.Publishable ordered ∧ ∃ e, (f.publishComposition ordered policy rng).1 = .error e ∧
      (f.publishComposition ordered policy rng).2.1 = f) ∨
    (f.Publishable ordered ∧ ∃ c, f.PublishedAs ordered policy rng c ∧
      (f.publishComposition ordered policy rng).1 = .ok c ∧
      (f.publishComposition ordered policy rng).2.1 = { f with
        compositions := f.compositions.insert c.id.str c
        nextCompositionGen := f.nextCompositionGen.next }) := by
  cases ordered with
  | nil => exact .inl ⟨fun h => h.nonempty rfl, _, rfl, rfl⟩
  | cons id ids =>
    unfold publishComposition
    dsimp only
    cases hfirst : f.adapter id with
    | none =>
      refine .inl ⟨fun h => ?_, _, rfl, rfl⟩
      obtain ⟨d, hd⟩ := h.registered id (by simp)
      rw [hfirst] at hd
      cases hd
    | some first =>
      dsimp only
      have hiff : f.Publishable (id :: ids) ↔ _ := publishable_iff hkeyed hfirst (b := {
        base := first.baseModel, rev := first.baseModelRevision, policy
        gen := f.nextCompositionGen }) rfl rfl rfl
      cases hadd : f.addAll (id :: ids) {
          base := first.baseModel, rev := first.baseModelRevision, policy
          gen := f.nextCompositionGen } with
      | error e =>
        refine .inl ⟨fun h => ?_, _, rfl, rfl⟩
        have := (hiff.mp h).1
        rw [hadd] at this
        cases this
      | ok b =>
        dsimp only
        obtain ⟨ds, hds, hfits, hnodup, -, rfl⟩ := addAll_eq_ok_iff.mp hadd
        have hlisted := listed_of_map hds
        have hbuilds := build_isOk_iff rfl rfl hfits hnodup rng
        have hnonempty : ds ≠ [] := by
          rintro rfl
          cases hds
        rw [hadd, hlisted, and_iff_right rfl] at hiff
        rw [and_iff_right hnonempty, ← hiff] at hbuilds
        cases hbuild : (CompositionBuilder.extend _ ds).build rng with
        | mk result rng' =>
          rw [hbuild] at hbuilds
          cases result with
          | error e =>
            refine .inl ⟨fun h => ?_, _, rfl, rfl⟩
            obtain ⟨c, hc⟩ := hbuilds.mpr h
            cases hc
          | ok c =>
            obtain ⟨hbuilt, -, hgen, hpolicy⟩ := addAll_ok hadd ⟨rfl, List.nodup_nil, by simp⟩
              (by simp)
            have hc : (CompositionBuilder.extend _ ds).Builds rng c :=
              build_ok hbuilt (by rw [hbuild])
            refine .inr ⟨hbuilds.mp ⟨c, rfl⟩, c, ?_, rfl, rfl⟩
            exact {
              id := hc.id
              members := by rw [hc.members, hlisted]; rfl
              generation := hc.generation.trans hgen
              policy := hc.policy.trans hpolicy
              total := by rw [hc.members]; exact hc.total
              digest := by rw [hc.members, hc.policy]; exact hc.digest }

end Keyed

theorem adapters_keyed_step (op : Op) {f : Fabric}
    (h : Table.Keyed (fun d : AdapterDescriptor => d.id.str) f.adapters) :
    Table.Keyed (fun d : AdapterDescriptor => d.id.str) (op.apply f).adapters := by
  by_cases hreg : ∃ d, op = .registerAdapter d
  · obtain ⟨d, rfl⟩ := hreg
    rcases registerAdapter_cases f d with ⟨_, e, he⟩ | ⟨_, he⟩
    · simpa only [Op.apply, he] using h
    · simp only [Op.apply, he]
      exact h.insert { d with generation := f.nextAdapterGen }
  by_cases hepoch : op = .advanceEpoch
  · subst hepoch
    exact h
  by_cases hrec : op.isRecover = true
  · cases op with
    | recover s => exact (recover_tablesKeyed f s).adapters
    | _ => cases hrec
  rw [(registry_frame (fun d hd => hreg ⟨d, hd⟩) hepoch (Bool.not_eq_true _ ▸ hrec) f).2.2]
  exact h

/-- Whatever happened to a Fabric, it finds each adapter under its own id. -/
theorem run_adapters_keyed {f : Fabric} (hf : Fresh f) (ops : List Op) :
    Table.Keyed (fun d : AdapterDescriptor => d.id.str) (run ops f).adapters := by
  refine Run.exec_preserves
    (P := fun f : Fabric => Table.Keyed (fun d : AdapterDescriptor => d.id.str) f.adapters)
    (fun op _ _ h => adapters_keyed_step op h) ?_
  cases hf <;> exact Table.keyed_empty

theorem publish_exact {f : Fabric} (hf : Fresh f) (ops : List Op) (ordered : List AdapterId)
    (policy : Bytes) (rng : Rng) :
    ((∃ c, ((run ops f).publishComposition ordered policy rng).1 = .ok c) ↔
      (run ops f).Publishable ordered) ∧
    (∀ c, ((run ops f).publishComposition ordered policy rng).1 = .ok c →
      (run ops f).PublishedAs ordered policy rng c ∧
      ((run ops f).publishComposition ordered policy rng).2.1 = { run ops f with
        compositions := (run ops f).compositions.insert c.id.str c
        nextCompositionGen := (run ops f).nextCompositionGen.next } ∧
      ((run ops f).compositions[c.id.str]? = none → ∀ (k : Bytes) (stored : Composition),
        (run ops f).compositions[k]? = some stored →
          ((run ops f).publishComposition ordered policy rng).2.1.compositions[k]? =
            some stored)) ∧
    ∀ e, ((run ops f).publishComposition ordered policy rng).1 = .error e →
      ((run ops f).publishComposition ordered policy rng).2.1 = run ops f := by
  rcases publish_spec (run_adapters_keyed hf ops) ordered policy rng with
    ⟨hno, e, he, hsame⟩ | ⟨hyes, c, hc, hok, hstate⟩
  · refine ⟨iff_of_false (by rw [he]; nofun) hno, by rw [he]; nofun, fun _ _ => hsame⟩
  · refine ⟨iff_of_true ⟨c, hok⟩ hyes, fun c' hc' => ?_, by rw [hok]; nofun⟩
    obtain rfl := Except.ok.inj (hok.symm.trans hc')
    refine ⟨hc, hstate, fun hfree k stored hk => ?_⟩
    rw [hstate]
    show ((run ops f).compositions.insert c.id.str c)[k]? = some stored
    rw [Table.get_insert, if_neg, hk]
    rintro rfl
    rw [hfree] at hk
    cases hk

theorem publish_exact_sample :
    ∃ c, ((run sampleOps .default).publishComposition [sampleAdapter.id] [] .instanceInit).1 =
      .ok c ∧ c.generation = (run sampleOps .default).nextCompositionGen := by
  have hok : ((run sampleOps .default).publishComposition [sampleAdapter.id] []
      .instanceInit).1.isOk = true := by decide +kernel
  cases hc : ((run sampleOps .default).publishComposition [sampleAdapter.id] []
      .instanceInit).1 with
  | error e =>
    rw [hc] at hok
    cases hok
  | ok c => exact ⟨c, rfl, ((publish_exact .default sampleOps _ _ _).2.1 c hc).1.generation⟩

end Fabric

end AdapterFabric
