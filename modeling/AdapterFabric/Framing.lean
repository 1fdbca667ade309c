import AdapterFabric.Lib.Run
import AdapterFabric.Transport
import Mathlib.Algebra.BigOperators.Group.Finset.Basic
import Mathlib.Data.Fin.VecNotation
import Mathlib.Data.Fintype.Basic

/-!
# AdapterFabric.Framing

One connection with its two ends at work (`send_all`, `recv_exact`, `send_frame` and `recv_frame` of
`transport.cpp`).

Any number of threads call `send_frame` on one end, one call of `::send` at a time, and one thread
calls `recv_frame` on the other, one call of `::recv` at a time. TCP carries the bytes in order; a
call moves at least one byte and at most those that are asked for, and a `::recv` that finds none
waits, or reports the end of the stream.

* `TcpSocket.recvFrame_eq_drive`: `await` is what `recv_frame` does between two calls of `::recv`.
* `Inv.act`: how the locked, the returned and the travelling payloads hang together.
* `frames_delivered`: what is received are the sent payloads, in the order of the write lock.
-/

namespace AdapterFabric

namespace Framing

/-! ## Sending -/

/-- The buffers that `send_frame` passes to `send_all`, one after the other. -/
def buffers (payload : Bytes) : List Bytes :=
  let len : UInt32 := .ofNat payload.length
  let chk := fnv1a_64 fnvSeed payload
  writeU32 len :: ((if payload.isEmpty then [] else [payload]) ++ [wordBytes chk])

theorem buffers_flatten (P : Bytes) : (buffers P).flatten = frame P := by
  cases P with
  | nil => simp [buffers, frame]
  | cons x P => simp [buffers, frame]

theorem nil_not_mem_buffers (P : Bytes) : [] ∉ buffers P := by
  have hheader : writeU32 (.ofNat P.length) ≠ [] :=
    List.length_pos_iff.mp (by rw [length_writeU32]; omega)
  have htrailer : wordBytes (fnv1a_64 fnvSeed P) ≠ [] :=
    List.length_pos_iff.mp (by rw [wordBytes_length]; omega)
  unfold buffers
  dsimp only
  rw [List.mem_cons, not_or]
  refine ⟨hheader.symm, ?_⟩
  cases P with
  | nil => simp [htrailer.symm]
  | cons x P => simp [htrailer.symm]

theorem length_frame (P : Bytes) : (frame P).length = 4 + P.length + 8 := by
  simp only [frame, List.length_append, length_writeU32, wordBytes_length]

/-! ## Receiving -/

/-- What `recv_frame` does next: ask `::recv` for bytes, or return (`none` for `false`). -/
inductive Await where
  | request (n : Nat)
  | result (payload : Option Bytes)
deriving DecidableEq

/-- What `recv_frame` does once its calls of `::recv` have delivered `got`: the three loops of
`recv_exact`, with the hard cap after the header and the comparison of the checksums at the end. -/
def await (got : Bytes) : Await :=
  if got.length < 4 then .request (4 - got.length)
  else
    let len := (TcpSocket.headerLen (got.take 4)).toNat
    if len > 64 * 1024 * 1024 then .result none
    else if got.length < 4 + len then .request (4 + len - got.length)
    else if got.length < 4 + len + 8 then .request (4 + len + 8 - got.length)
    else
      let payload := (got.drop 4).take len
      let ck := got.drop (4 + len)
      .result (if bytesWord ck = fnv1a_64 fnvSeed payload then some payload else none)

theorem await_nil : await [] = .request 4 := rfl

theorem headerLen_take {P got t : Bytes} (hP : P.length ≤ 64 * 1024 * 1024)
    (h : got ++ t = frame P) (h4 : 4 ≤ got.length) :
    (TcpSocket.headerLen (got.take 4)).toNat = P.length := by
  have htake : got.take 4 = writeU32 (.ofNat P.length) := by
    have := congrArg (List.take 4) h
    rw [List.take_append_of_le_length h4, frame_eq] at this
    rw [this, ← length_writeU32 (.ofNat P.length), List.take_left]
  rw [htake]
  exact (TcpSocket.isFrame_frame (by omega)).length

theorem await_partial {P got t : Bytes} (hP : P.length ≤ 64 * 1024 * 1024)
    (h : got ++ t = frame P) (ht : t ≠ []) :
    ∃ n, await got = .request n ∧ 0 < n ∧ n ≤ t.length := by
  have hlen : got.length + t.length = 4 + P.length + 8 := by
    rw [← List.length_append, h, length_frame]
  have hpos := List.length_pos_iff.mpr ht
  unfold await
  by_cases h4 : got.length < 4
  · exact ⟨_, if_pos h4, by omega, by omega⟩
  rw [if_neg h4, headerLen_take hP h (by omega)]
  dsimp only
  rw [if_neg (by omega)]
  by_cases hbody : got.length < 4 + P.length
  · exact ⟨_, if_pos hbody, by omega, by omega⟩
  · rw [if_neg hbody]
    exact ⟨_, if_pos (by omega), by omega, by omega⟩

theorem await_frame {P : Bytes} (hP : P.length ≤ 64 * 1024 * 1024) :
    await (frame P) = .result (some P) := by
  have hlen := length_frame P
  have hdrop : (frame P).drop 4 = P ++ wordBytes (fnv1a_64 fnvSeed P) := by
    rw [frame_eq, ← length_writeU32 (.ofNat P.length), List.drop_left]
  have hck : (frame P).drop (4 + P.length) = wordBytes (fnv1a_64 fnvSeed P) := by
    rw [← List.drop_drop, hdrop, List.drop_left]
  unfold await
  rw [if_neg (by omega), headerLen_take hP (List.append_nil _) (by omega)]
  dsimp only
  rw [if_neg (by omega), if_neg (by omega), if_neg (by omega), hdrop, hck, List.take_left,
    bytesWord_wordBytes, if_pos rfl]

end Framing

/-! ### `recv_frame` as requests and deliveries -/

namespace TcpSocket

open Framing

/-- `recv_frame` on a valid socket, resumed after `got`. -/
def drive (s : TcpSocket) (got : Bytes) : Option Bytes × TcpSocket :=
  match await got with
  | .result r => (r, s)
  | .request n =>
    if _ : (s.recv n).1 = [] then (none, (s.recv n).2)
    else (s.recv n).2.drive (got ++ (s.recv n).1)
termination_by s.stream.length
decreasing_by
  rename_i hne
  have hpos := List.length_pos_iff.mpr hne
  simp only [recv, List.length_take, List.length_drop] at hpos ⊢
  omega

/-- What follows a call of `recv_exact` in `recv_frame`. -/
def resume (got : Bytes) : Option Bytes × TcpSocket → Option Bytes × TcpSocket
  | (none, s) => (none, s)
  | (some w, s) => s.drive (got ++ w)

/-- As long as exactly what is missing of `n` bytes is asked for, the loop is that of
`recv_exact`. -/
theorem drive_exact : ∀ (n : Nat) (s : TcpSocket) (got : Bytes),
    (∀ w : Bytes, w.length < n → await (got ++ w) = .request (n - w.length)) →
    s.drive got = resume got (s.recvExact n) := by
  intro n
  induction n using Nat.strong_induction_on with
  | _ n ih =>
    intro s got hawait
    by_cases h0 : n = 0
    · subst h0
      rw [recvExact, if_pos rfl, resume, List.append_nil]
    · have hfirst := hawait [] (by simpa using Nat.pos_of_ne_zero h0)
      rw [List.append_nil, List.length_nil, Nat.sub_zero] at hfirst
      rw [drive, hfirst, recvExact, if_neg h0]
      dsimp only
      by_cases hend : (s.recv n).1 = []
      · rw [dif_pos hend, dif_pos hend, resume]
      · rw [dif_neg hend, dif_neg hend]
        have hpos := List.length_pos_iff.mpr hend
        have hrest : ∀ w : Bytes, w.length < n - (s.recv n).1.length →
            await (got ++ (s.recv n).1 ++ w) =
              .request (n - (s.recv n).1.length - w.length) := by
          intro w hw
          rw [List.append_assoc, hawait _ (by rw [List.length_append]; omega), List.length_append]
          congr 1
          omega
        rw [ih _ (by omega) _ _ hrest]
        cases (s.recv n).2.recvExact (n - (s.recv n).1.length) with
        | mk r s' =>
          cases r with
          | none => rfl
          | some w =>
            dsimp only [resume]
            rw [List.append_assoc]

theorem await_header {hdr : Bytes} (h : hdr.length = 4) {len : Nat}
    (hlen : (headerLen hdr).toNat = len) (w : Bytes) :
    await (hdr ++ w) =
      if len > 64 * 1024 * 1024 then .result none
      else if w.length < len then .request (len - w.length)
      else if w.length < len + 8 then .request (len + 8 - w.length)
      else
        .result (if bytesWord (w.drop len) = fnv1a_64 fnvSeed (w.take len) then
          some (w.take len) else none) := by
  have htake : (hdr ++ w).take 4 = hdr := by rw [← h, List.take_left]
  have hdrop : (hdr ++ w).drop 4 = w := by rw [← h, List.drop_left]
  have hlength : (hdr ++ w).length = 4 + w.length := by rw [List.length_append, h]
  have hdrop' : (hdr ++ w).drop (4 + len) = w.drop len := by rw [← List.drop_drop, hdrop]
  unfold await
  rw [hlength, htake, hlen, if_neg (by omega)]
  dsimp only
  rw [hdrop, hdrop']
  by_cases hcap : len > 64 * 1024 * 1024
  · rw [if_pos hcap, if_pos hcap]
  rw [if_neg hcap, if_neg hcap]
  by_cases hbody : w.length < len
  · rw [if_pos hbody, if_pos (by omega), show 4 + len - (4 + w.length) = len - w.length by omega]
  rw [if_neg hbody, if_neg (by omega)]
  by_cases htrailer : w.length < len + 8
  · rw [if_pos htrailer, if_pos (by omega),
      show 4 + len + 8 - (4 + w.length) = len + 8 - w.length by omega]
  · rw [if_neg htrailer, if_neg (by omega)]

theorem recvFrame_eq_drive {s : TcpSocket} (h : s.valid = true) : s.recvFrame = s.drive [] := by
  have hheader : ∀ w : Bytes, w.length < 4 → await ([] ++ w) = .request (4 - w.length) := by
    intro w hw
    rw [await, List.nil_append, if_pos hw]
  rw [drive_exact 4 s [] hheader, recvFrame, if_neg (by simp [h])]
  cases h1 : s.recvExact 4 with
  | mk r s1 =>
    cases r with
    | none => rfl
    | some hdr =>
      have h4 : hdr.length = 4 := (recvExact_some h1).1
      dsimp only [resume]
      rw [List.nil_append]
      obtain ⟨len, hlen⟩ : ∃ len, (headerLen hdr).toNat = len := ⟨_, rfl⟩
      have hawait := await_header h4 hlen
      rw [hlen]
      by_cases hcap : len > 64 * 1024 * 1024
      · rw [if_pos hcap, drive, ← List.append_nil hdr, hawait, if_pos hcap]
      · rw [if_neg hcap]
        have hbody : ∀ w : Bytes, w.length < len →
            await (hdr ++ w) = .request (len - w.length) := by
          intro w hw
          rw [hawait, if_neg hcap, if_pos hw]
        have hempty : (if len > 0 then s1.recvExact len else (some [], s1)) = s1.recvExact len := by
          by_cases hpos : len > 0
          · rw [if_pos hpos]
          · rw [if_neg hpos, recvExact, if_pos (by omega)]
        rw [drive_exact len s1 hdr hbody, hempty]
        cases h2 : s1.recvExact len with
        | mk r s2 =>
          cases r with
          | none => rfl
          | some payload =>
            have hl : payload.length = len := (recvExact_some h2).1
            have htrailer : ∀ w : Bytes, w.length < 8 →
                await (hdr ++ payload ++ w) = .request (8 - w.length) := by
              intro w hw
              have hsum : (payload ++ w).length = len + w.length := by
                rw [List.length_append, hl]
              rw [List.append_assoc, hawait, if_neg hcap, hsum, if_neg (by omega),
                if_pos (by omega)]
              congr 1
              omega
            dsimp only [resume]
            rw [drive_exact 8 s2 _ htrailer]
            cases h3 : s2.recvExact 8 with
            | mk r s3 =>
              cases r with
              | none => rfl
              | some ck =>
                have hck : ck.length = 8 := (recvExact_some h3).1
                have hsum : (payload ++ ck).length = len + 8 := by
                  rw [List.length_append, hl, hck]
                have hdone : await (hdr ++ payload ++ ck) =
                    .result (if bytesWord ck = fnv1a_64 fnvSeed payload then some payload
                      else none) := by
                  rw [List.append_assoc, hawait, if_neg hcap, hsum, if_neg (by omega),
                    if_neg (by omega), ← hl, List.drop_left, List.take_left]
                dsimp only [resume]
                rw [drive, hdone]
                dsimp only
                split <;> rfl

end TcpSocket

namespace Framing

/-! ## The connection -/

/-- Threads `ι` that send on one socket, and its peer. -/
structure Connection (ι : Type) where
  /-- the payloads each thread has still to pass to `send_frame` -/
  queue : ι → List Bytes
  /-- the thread in `write_lock_`, and what it has still to pass to `::send` -/
  sender : Option (ι × List Bytes) := none
  wire : Bytes := []
  closed : Bool := false
  /-- how many calls of `recv_frame` are still to return -/
  calls : ℕ
  /-- what `::recv` has delivered to the current one -/
  got : Bytes := []
  /-- the payloads in the order in which their senders acquired the lock -/
  locked : List (ι × Bytes) := []
  returned : List (Option Bytes) := []

inductive Action (ι : Type) where
  /-- a thread enters `send_frame` and acquires the lock -/
  | lock (i : ι)
  /-- a call of `::send` moves `k` bytes -/
  | send (k : ℕ)
  /-- `send_frame` returns -/
  | unlock
  /-- the stream ends, when nothing more is to be sent -/
  | close
  /-- a call of `::recv` moves `k` bytes or reports the end, or `recv_frame` returns -/
  | recv (k : ℕ)

section Step

variable {ι : Type}

/-- `send_frame` after `k` bytes of the current buffer were sent. -/
def advance (b : Bytes) (todo : List Bytes) (k : ℕ) : List Bytes :=
  if k = b.length then todo else b.drop k :: todo

def Connection.return (c : Connection ι) (r : Option Bytes) : Connection ι :=
  { c with calls := c.calls - 1, got := [], returned := c.returned ++ [r] }

def receive (c : Connection ι) (k : ℕ) : Option (Connection ι) :=
  if c.calls = 0 then none
  else
    match await c.got with
    | .result r => some (c.return r)
    | .request n =>
      if 0 < k ∧ k ≤ n ∧ k ≤ c.wire.length then
        some { c with got := c.got ++ c.wire.take k, wire := c.wire.drop k }
      else if c.wire = [] ∧ c.closed then some (c.return none)
      else none

variable [DecidableEq ι] [Fintype ι]

def act (c : Connection ι) : Action ι → Option (Connection ι)
  | .lock i =>
    match c.sender, c.queue i with
    | none, P :: Ps =>
      some { c with
        queue := Function.update c.queue i Ps
        sender := some (i, buffers P)
        locked := c.locked ++ [(i, P)] }
    | _, _ => none
  | .send k =>
    match c.sender with
    | some (i, b :: todo) =>
      if 0 < k ∧ k ≤ b.length then
        some { c with sender := some (i, advance b todo k), wire := c.wire ++ b.take k }
      else none
    | _ => none
  | .unlock =>
    match c.sender with
    | some (_, []) => some { c with sender := none }
    | _ => none
  | .close =>
    if c.sender = none ∧ (∀ i, c.queue i = []) ∧ ¬ c.closed then some { c with closed := true }
    else none
  | .recv k => receive c k

/-- What one step can do. -/
inductive Step (c : Connection ι) : Connection ι → Prop where
  | lock {i P Ps} (hfree : c.sender = none) (hqueue : c.queue i = P :: Ps) :
    Step c { c with
      queue := Function.update c.queue i Ps
      sender := some (i, buffers P)
      locked := c.locked ++ [(i, P)] }
  | send {i b todo k} (hsender : c.sender = some (i, b :: todo)) (hk : 0 < k)
    (hb : k ≤ b.length) :
    Step c { c with sender := some (i, advance b todo k), wire := c.wire ++ b.take k }
  | unlock {i} (hsender : c.sender = some (i, [])) : Step c { c with sender := none }
  | close (hfree : c.sender = none) (hqueue : ∀ i, c.queue i = []) (hopen : c.closed = false) :
    Step c { c with closed := true }
  | recv {n k} (hcalls : c.calls ≠ 0) (hawait : await c.got = .request n) (hk : 0 < k) (hn : k ≤ n)
    (hwire : k ≤ c.wire.length) :
    Step c { c with got := c.got ++ c.wire.take k, wire := c.wire.drop k }
  | eof {n} (hcalls : c.calls ≠ 0) (hawait : await c.got = .request n) (hwire : c.wire = [])
    (hclosed : c.closed = true) : Step c (c.return none)
  | result {r} (hcalls : c.calls ≠ 0) (hawait : await c.got = .result r) : Step c (c.return r)

theorem act_step {c d : Connection ι} {a : Action ι} (h : act c a = some d) : Step c d := by
  cases a with
  | lock i =>
    simp only [act] at h
    split at h
    · rename_i hfree hqueue
      cases h
      exact .lock hfree hqueue
    · cases h
  | send k =>
    simp only [act] at h
    split at h
    · rename_i hsender
      split at h
      · rename_i hk
        cases h
        exact .send hsender hk.1 hk.2
      · cases h
    · cases h
  | unlock =>
    simp only [act] at h
    split at h
    · rename_i hsender
      cases h
      exact .unlock hsender
    · cases h
  | close =>
    simp only [act] at h
    split at h
    · rename_i hclose
      cases h
      exact .close hclose.1 hclose.2.1 (by simpa using hclose.2.2)
    · cases h
  | recv k =>
    simp only [act, receive] at h
    split at h
    · cases h
    · rename_i hcalls
      split at h
      · rename_i hawait
        cases h
        exact .result hcalls hawait
      · rename_i hawait
        split at h
        · rename_i hk
          cases h
          exact .recv hcalls hawait hk.1 hk.2.1 hk.2.2
        · split at h
          · rename_i hend
            cases h
            exact .eof hcalls hawait hend.1 hend.2
          · cases h

end Step

/-! ## What travels -/

section Carries

variable {ι : Type} {c : Connection ι} {done rest : List Bytes} {n : ℕ}

/-- What the thread in the lock has still to send. -/
def Connection.pending (c : Connection ι) : Bytes := ((c.sender.map Prod.snd).getD []).flatten

theorem flatten_advance (b : Bytes) (todo : List Bytes) (k : ℕ) :
    b.take k ++ (advance b todo k).flatten = (b :: todo).flatten := by
  unfold advance
  by_cases hk : k = b.length
  · rw [if_pos hk, hk, List.take_length, List.flatten_cons]
  · rw [if_neg hk, List.flatten_cons, ← List.append_assoc, List.take_append_drop,
      List.flatten_cons]

/-- The payloads `done` were received, after them `n` calls reported the end, and the payloads
`rest` are on their way, the first of them received in part. -/
structure Carries (c : Connection ι) (done rest : List Bytes) (n : ℕ) : Prop where
  locked : c.locked.map Prod.snd = done ++ rest
  returned : c.returned = done.map some ++ List.replicate n none
  stream : c.got ++ (c.wire ++ c.pending) = rest.flatMap frame
  within : ∀ P ∈ rest.head?, c.got.length ≤ (frame P).length
  ended : n ≠ 0 → c.closed = true ∧ rest = []

theorem Carries.idle (h : Carries c done [] n) : c.got = [] ∧ c.wire = [] := by
  have hstream := h.stream
  simp only [List.flatMap_nil, List.append_eq_nil_iff] at hstream
  exact ⟨hstream.1, hstream.2.1⟩

theorem Carries.head {P : Bytes} (h : Carries c done (P :: rest) n) :
    ∃ t, c.got ++ t = frame P ∧ c.wire ++ c.pending = t ++ rest.flatMap frame := by
  have hstream : c.got ++ (c.wire ++ c.pending) = frame P ++ rest.flatMap frame := by
    rw [h.stream, List.flatMap_cons]
  have hgot : c.got <+: frame P ++ rest.flatMap frame := hstream ▸ List.prefix_append _ _
  obtain ⟨t, ht⟩ : c.got <+: frame P :=
    List.prefix_of_prefix_length_le hgot (List.prefix_append _ _) (h.within P rfl)
  rw [← ht, List.append_assoc] at hstream
  exact ⟨t, ht, List.append_cancel_left hstream⟩

theorem Carries.send {i : ι} {b : Bytes} {todo : List Bytes} {k : ℕ} (h : Carries c done rest n)
    (hsender : c.sender = some (i, b :: todo)) :
    Carries { c with sender := some (i, advance b todo k), wire := c.wire ++ b.take k }
      done rest n := by
  obtain ⟨locked, returned, stream, within, ended⟩ := h
  refine ⟨locked, returned, ?_, within, ended⟩
  rw [← stream]
  simp only [Connection.pending, hsender, Option.map_some, Option.getD_some, List.append_assoc,
    ← flatten_advance b todo k]

theorem Carries.lock {queue : ι → List Bytes} {i : ι} {P : Bytes} (h : Carries c done rest n)
    (hfree : c.sender = none) (hopen : c.closed = false) :
    Carries { c with queue, sender := some (i, buffers P), locked := c.locked ++ [(i, P)] }
      done (rest ++ [P]) n := by
  have hpending : c.pending = [] := by simp [Connection.pending, hfree]
  refine ⟨by simp [h.locked], h.returned, ?_, ?_, ?_⟩
  · have hstream := h.stream
    rw [hpending, List.append_nil] at hstream
    simp only [Connection.pending, Option.map_some, Option.getD_some, buffers_flatten]
    rw [← List.append_assoc, hstream, List.flatMap_append, List.flatMap_singleton]
  · cases rest with
    | nil => simp [h.idle.1]
    | cons Q rest => exact h.within
  · intro hn
    rw [(h.ended hn).1] at hopen
    cases hopen

theorem Carries.recv {m k : ℕ} (h : Carries c done rest n)
    (hcap : ∀ P ∈ rest, P.length ≤ 64 * 1024 * 1024) (hawait : await c.got = .request m)
    (hm : k ≤ m) :
    Carries { c with got := c.got ++ c.wire.take k, wire := c.wire.drop k } done rest n := by
  refine ⟨h.locked, h.returned, ?_, ?_, h.ended⟩
  · show c.got ++ c.wire.take k ++ (c.wire.drop k ++ c.pending) = _
    rw [← h.stream, List.append_assoc, ← List.append_assoc (c.wire.take k), List.take_append_drop]
  · intro P hP
    cases rest with
    | nil => cases hP
    | cons Q rest =>
      cases hP
      obtain ⟨t, ht, _⟩ := h.head
      have hlen := congrArg List.length ht
      have hne : t ≠ [] := by
        rintro rfl
        rw [List.append_nil] at ht
        rw [ht, await_frame (hcap P (by simp))] at hawait
        cases hawait
      obtain ⟨m', hawait', _, hle⟩ := await_partial (hcap P (by simp)) ht hne
      obtain rfl : m = m' := by
        rw [hawait] at hawait'
        exact Await.request.inj hawait'
      simp only [List.length_append, List.length_take] at hlen ⊢
      omega

theorem Carries.eof {m : ℕ} (h : Carries c done rest n)
    (hcap : ∀ P ∈ rest, P.length ≤ 64 * 1024 * 1024) (hawait : await c.got = .request m)
    (hwire : c.wire = []) (hclosed : c.closed = true) (hfree : c.sender = none) :
    rest = [] ∧ Carries (c.return none) done [] (n + 1) := by
  have hpending : c.pending = [] := by simp [Connection.pending, hfree]
  have hrest : rest = [] := by
    cases rest with
    | nil => rfl
    | cons P rest =>
      -- a frame that lacks nothing would have been returned
      obtain ⟨t, ht, hmissing⟩ := h.head
      rw [hwire, hpending, List.append_nil] at hmissing
      obtain rfl : t = [] := (List.append_eq_nil_iff.mp hmissing.symm).1
      rw [List.append_nil] at ht
      rw [ht, await_frame (hcap P (by simp))] at hawait
      cases hawait
  subst hrest
  refine ⟨rfl, h.locked, ?_, ?_, by simp, fun _ => ⟨hclosed, rfl⟩⟩
  · rw [List.replicate_succ', ← List.append_assoc, ← h.returned]
    rfl
  · show [] ++ (c.wire ++ c.pending) = []
    rw [hwire, hpending]
    rfl

theorem Carries.result {r : Option Bytes} (h : Carries c done rest n)
    (hcap : ∀ P ∈ rest, P.length ≤ 64 * 1024 * 1024) (hawait : await c.got = .result r) :
    ∃ P rest', rest = P :: rest' ∧ Carries (c.return r) (done ++ [P]) rest' 0 := by
  cases rest with
  | nil =>
    rw [h.idle.1, await_nil] at hawait
    cases hawait
  | cons P rest =>
    obtain ⟨t, ht, hmissing⟩ := h.head
    have hdone : t = [] := by
      by_contra hne
      obtain ⟨m, hrequest, _⟩ := await_partial (hcap P (by simp)) ht hne
      rw [hawait] at hrequest
      cases hrequest
    subst hdone
    rw [List.append_nil] at ht
    rw [ht, await_frame (hcap P (by simp))] at hawait
    cases hawait
    have hn : n = 0 := by
      by_contra hn
      cases (h.ended hn).2
    refine ⟨P, rest, rfl, by simp [Connection.return, h.locked], ?_, ?_, ?_, fun h => absurd rfl h⟩
    · show c.returned ++ [some P] = _
      rw [h.returned, hn]
      simp
    · exact hmissing
    · intro Q _
      exact Nat.zero_le _

end Carries

/-! ## The invariant -/

section Invariant

variable {ι : Type} [DecidableEq ι] {payloads : ι → List Bytes} {calls : ℕ} {c d : Connection ι}

/-- What `recv_frame` returns for the payloads in the order of the lock. -/
def Connection.results (c : Connection ι) : List (Option Bytes) := c.locked.map fun x => some x.2

/-- The payloads that a thread has acquired the lock for, in this order. -/
def Connection.sentBy (c : Connection ι) (i : ι) : List Bytes :=
  (c.locked.filter fun x => x.1 = i).map Prod.snd

structure Inv (payloads : ι → List Bytes) (calls : ℕ) (c : Connection ι) : Prop where
  share : ∀ i, c.sentBy i ++ c.queue i = payloads i
  carries : ∃ done rest n, Carries c done rest n
  buffered : ∀ i todo, c.sender = some (i, todo) → [] ∉ todo
  ended : c.closed = true → c.sender = none ∧ ∀ i, c.queue i = []
  count : c.returned.length + c.calls = calls

theorem sentBy_lock (c : Connection ι) (i j : ι) (P : Bytes) (queue sender) :
    Connection.sentBy { c with queue, sender, locked := c.locked ++ [(i, P)] } j =
      if i = j then c.sentBy j ++ [P] else c.sentBy j := by
  unfold Connection.sentBy
  rw [List.filter_append, List.map_append]
  by_cases hj : i = j <;> simp [hj]

theorem Inv.capped (h : Inv payloads calls c)
    (hcap : ∀ i, ∀ P ∈ payloads i, P.length ≤ 64 * 1024 * 1024) {done rest : List Bytes} {n : ℕ}
    (hc : Carries c done rest n) : ∀ P ∈ rest, P.length ≤ 64 * 1024 * 1024 := by
  intro P hP
  have hlocked : P ∈ c.locked.map Prod.snd := by
    rw [hc.locked]
    exact List.mem_append_right _ hP
  obtain ⟨⟨i, P⟩, hmem, rfl⟩ := List.mem_map.mp hlocked
  refine hcap i P ?_
  rw [← h.share i]
  refine List.mem_append_left _ (List.mem_map.mpr ⟨(i, P), ?_, rfl⟩)
  exact List.mem_filter.mpr ⟨hmem, by simp⟩

theorem inv_start : Inv payloads calls { queue := payloads, calls } where
  share i := rfl
  carries := ⟨[], [], 0, rfl, rfl, rfl, by simp, fun h => absurd rfl h⟩
  buffered i todo h := by cases h
  ended h := by cases h
  count := Nat.zero_add _

theorem Inv.step (hcap : ∀ i, ∀ P ∈ payloads i, P.length ≤ 64 * 1024 * 1024)
    (h : Inv payloads calls c) (hstep : Step c d) : Inv payloads calls d := by
  obtain ⟨done, rest, n, hc⟩ := h.carries
  have hsmall := h.capped hcap hc
  cases hstep with
  | @lock i P Ps hfree hqueue =>
    have hopen : c.closed = false := by
      by_contra hclosed
      have := (h.ended (by simpa using hclosed)).2 i
      rw [hqueue] at this
      cases this
    refine ⟨?_, ⟨done, rest ++ [P], n, hc.lock hfree hopen⟩, ?_, ?_, h.count⟩
    · intro j
      rw [sentBy_lock, ← h.share j]
      by_cases hj : i = j
      · subst hj
        simp [hqueue]
      · simp [hj, Function.update_of_ne (Ne.symm hj)]
    · rintro j todo hsender
      cases hsender
      exact nil_not_mem_buffers P
    · intro hclosed
      rw [hopen] at hclosed
      cases hclosed
  | @send i b todo k hsender hk hb =>
    refine ⟨h.share, ⟨done, rest, n, hc.send hsender⟩, ?_, ?_, h.count⟩
    · rintro j todo' hsender'
      cases hsender'
      have hbuffered := h.buffered i _ hsender
      rw [List.mem_cons, not_or] at hbuffered
      unfold advance
      split
      · exact hbuffered.2
      · have hpos : 0 < (b.drop k).length := by rw [List.length_drop]; omega
        rw [List.mem_cons, not_or]
        exact ⟨(List.length_pos_iff.mp hpos).symm, hbuffered.2⟩
    · intro hclosed
      have := (h.ended hclosed).1
      rw [hsender] at this
      cases this
  | @unlock i hsender =>
    obtain ⟨locked, returned, stream, within, ended⟩ := hc
    have hpending : c.pending = [] := by simp [Connection.pending, hsender]
    rw [hpending] at stream
    refine ⟨h.share, ⟨done, rest, n, locked, returned, stream, within, ended⟩, ?_, ?_, h.count⟩
    · intro j todo hsender'
      cases hsender'
    · intro hclosed
      exact ⟨rfl, (h.ended hclosed).2⟩
  | close hfree hqueue hopen =>
    have hn : n = 0 := by
      by_contra hn
      rw [(hc.ended hn).1] at hopen
      cases hopen
    obtain ⟨locked, returned, stream, within, ended⟩ := hc
    exact ⟨h.share, ⟨done, rest, n, locked, returned, stream, within, fun hne => absurd hn hne⟩,
      h.buffered, fun _ => ⟨hfree, hqueue⟩, h.count⟩
  | recv hcalls hawait hk hn hwire =>
    exact ⟨h.share, ⟨done, rest, n, hc.recv hsmall hawait hn⟩, h.buffered, h.ended, h.count⟩
  | eof hcalls hawait hwire hclosed =>
    obtain ⟨_, hnext⟩ := hc.eof hsmall hawait hwire hclosed (h.ended hclosed).1
    refine ⟨h.share, ⟨done, [], n + 1, hnext⟩, h.buffered, h.ended, ?_⟩
    have := h.count
    simp only [Connection.return, List.length_append, List.length_singleton]
    omega
  | result hcalls hawait =>
    obtain ⟨P, rest', _, hnext⟩ := hc.result hsmall hawait
    refine ⟨h.share, ⟨done ++ [P], rest', 0, hnext⟩, h.buffered, h.ended, ?_⟩
    have := h.count
    simp only [Connection.return, List.length_append, List.length_singleton]
    omega

/-! ## Runs -/

variable [Fintype ι]

/-- An upper bound on the steps still to come: a byte is sent and received at most once, a frame is
locked and unlocked, a call returns. -/
def Connection.work (c : Connection ι) : ℕ :=
  (∑ i, ((c.queue i).map fun P => 2 * (frame P).length + 2).sum) +
    (c.sender.elim 0 fun x => 2 * x.2.flatten.length + 1) + c.wire.length + c.calls +
    (!c.closed).toNat

theorem work_lock {queue : ι → List Bytes} {i : ι} {P : Bytes} {Ps : List Bytes}
    (hqueue : queue i = P :: Ps) (cost : Bytes → ℕ) :
    ∑ j, ((queue j).map cost).sum =
      cost P + ∑ j, ((Function.update queue i Ps j).map cost).sum := by
  rw [← Finset.add_sum_erase _ _ (Finset.mem_univ i),
    ← Finset.add_sum_erase _ (fun j => ((Function.update queue i Ps j).map cost).sum)
      (Finset.mem_univ i)]
  have hothers : ∑ j ∈ Finset.univ.erase i, ((Function.update queue i Ps j).map cost).sum =
      ∑ j ∈ Finset.univ.erase i, ((queue j).map cost).sum := by
    refine Finset.sum_congr rfl fun j hj => ?_
    rw [Function.update_of_ne (Finset.ne_of_mem_erase hj)]
  rw [hothers, Function.update_self, hqueue, List.map_cons, List.sum_cons, Nat.add_assoc]

theorem work_step (h : Step c d) : d.work < c.work := by
  cases h with
  | @lock i P Ps hfree hqueue =>
    have hsum := work_lock hqueue fun P => 2 * (frame P).length + 2
    simp only [Connection.work, hfree, Option.elim_none, Option.elim_some, buffers_flatten, hsum]
    omega
  | @send i b todo k hsender hk hb =>
    have hlen := congrArg List.length (flatten_advance b todo k)
    simp only [List.length_append, List.length_take, Nat.min_eq_left hb] at hlen
    simp only [Connection.work, hsender, Option.elim_some, List.length_append, List.length_take,
      Nat.min_eq_left hb, ← hlen]
    omega
  | unlock hsender =>
    simp only [Connection.work, hsender, Option.elim_some, Option.elim_none]
    omega
  | close hfree hqueue hopen =>
    simp [Connection.work, hopen]
  | recv hcalls hawait hk hn hwire =>
    simp only [Connection.work, List.length_drop]
    omega
  | eof hcalls hawait hwire hclosed =>
    simp only [Connection.work, Connection.return]
    omega
  | result hcalls hawait =>
    simp only [Connection.work, Connection.return]
    omega

theorem await_pos {got : Bytes} {n : ℕ} (h : await got = .request n) : 0 < n := by
  unfold await at h
  dsimp only at h
  split_ifs at h <;> cases h <;> omega

/-- A connection that cannot go on has nothing left to do. -/
theorem Connection.stuck (hbuffered : ∀ i todo, c.sender = some (i, todo) → [] ∉ todo)
    (hstuck : ∀ a, act c a = none) :
    c.sender = none ∧ (∀ i, c.queue i = []) ∧ c.closed = true ∧ c.calls = 0 := by
  have hfree : c.sender = none := by
    cases hs : c.sender with
    | none => rfl
    | some x =>
      obtain ⟨i, todo⟩ := x
      cases todo with
      | nil =>
        have := hstuck .unlock
        simp only [act, hs] at this
        cases this
      | cons b todo =>
        have hb : b ≠ [] := fun hb => hbuffered i _ hs (by simp [hb])
        have := hstuck (.send 1)
        simp [act, hs, hb, Nat.one_le_iff_ne_zero] at this
  have hqueue : ∀ i, c.queue i = [] := by
    intro i
    cases hq : c.queue i with
    | nil => rfl
    | cons P Ps =>
      have := hstuck (.lock i)
      simp only [act, hfree, hq] at this
      cases this
  have hclosed : c.closed = true := by
    by_contra hopen
    have := hstuck .close
    simp only [act, if_pos (And.intro hfree (And.intro hqueue hopen))] at this
    cases this
  refine ⟨hfree, hqueue, hclosed, ?_⟩
  by_contra hcalls
  cases hawait : await c.got with
  | result r =>
    have := hstuck (.recv 0)
    simp only [act, receive, if_neg hcalls, hawait] at this
    cases this
  | request n =>
    have hrecv := hstuck (.recv 1)
    simp only [act, receive, if_neg hcalls, hawait] at hrecv
    by_cases hwire : c.wire = []
    · rw [if_neg (by simp [hwire]), if_pos ⟨hwire, hclosed⟩] at hrecv
      cases hrecv
    · rw [if_pos ⟨Nat.one_pos, await_pos hawait, List.length_pos_iff.mpr hwire⟩] at hrecv
      cases hrecv

omit [Fintype ι] in
theorem Inv.delivered (h : Inv payloads calls c) :
    c.returned <+: c.results ∨
      (∀ i, c.sentBy i = payloads i) ∧
        ∃ n, c.returned = c.results ++ List.replicate n none := by
  obtain ⟨done, rest, n, hc⟩ := h.carries
  have hlocked : c.results = done.map some ++ rest.map some := by
    rw [Connection.results, ← List.map_append, ← hc.locked, List.map_map]
    rfl
  by_cases hn : n = 0
  · left
    rw [hc.returned, hlocked, hn, List.replicate_zero, List.append_nil]
    exact List.prefix_append _ _
  · right
    obtain ⟨hclosed, hrest⟩ := hc.ended hn
    refine ⟨fun i => ?_, n, ?_⟩
    · rw [← h.share i, (h.ended hclosed).2 i, List.append_nil]
    · rw [hlocked, hrest, List.map_nil, List.append_nil, hc.returned]

theorem Inv.delivered_all (h : Inv payloads calls c) (hstuck : ∀ a, act c a = none) :
    (∀ i, c.sentBy i = payloads i) ∧
      c.returned = (c.results ++ List.replicate calls none).take calls := by
  obtain ⟨_, hqueue, _, hcalls⟩ := Connection.stuck h.buffered hstuck
  refine ⟨fun i => by rw [← h.share i, hqueue i, List.append_nil], ?_⟩
  have hlen : c.returned.length = calls := by
    rw [← h.count, hcalls, Nat.add_zero]
  rcases h.delivered with hpre | ⟨_, n, hn⟩
  · obtain ⟨t, ht⟩ := hpre
    rw [← ht, List.append_assoc, ← hlen, List.take_left]
  · have hsum : calls = c.results.length + n := by
      rw [← hlen, hn, List.length_append, List.length_replicate]
    rw [hn, hsum, List.take_append, List.take_replicate]
    simp

/-- In every interleaving and with every chunking, each thread's payloads are locked for in its own
order; what `recv_frame` has returned are the payloads in the order of the lock, and `false` only
after all of them; and the two ends can go on, but not for ever, until every payload is sent and
every call of `recv_frame` has returned. -/
theorem frames_delivered (payloads : ι → List Bytes) (calls : ℕ)
    (hcap : ∀ i, ∀ P ∈ payloads i, P.length ≤ 64 * 1024 * 1024) (as : List (Action ι))
    (c : Connection ι)
    (h : Run.Steps (fun c a d => act c a = some d) { queue := payloads, calls } as c) :
    (∀ i, c.sentBy i ++ c.queue i = payloads i) ∧
      (c.returned <+: c.results ∨
        (∀ i, c.sentBy i = payloads i) ∧
          ∃ n, c.returned = c.results ++ List.replicate n none) ∧
      as.length ≤ Connection.work { queue := payloads, calls } ∧
      ((∀ a, act c a = none) → (∀ i, c.sentBy i = payloads i) ∧
        c.returned = (c.results ++ List.replicate calls none).take calls) := by
  have hinv : Inv payloads calls c :=
    h.preserves (fun hstep hc => hc.step hcap (act_step hstep)) inv_start
  have hwork {c d : Connection ι} {as : List (Action ι)}
      (h : Run.Steps (fun c a d => act c a = some d) c as d) : as.length + d.work ≤ c.work := by
    induction h with
    | nil => simp
    | cons hstep _ ih =>
      have := work_step (act_step hstep)
      rw [List.length_cons]
      omega
  have hbound := hwork h
  exact ⟨hinv.share, hinv.delivered, by omega, hinv.delivered_all⟩

end Invariant

/-- Two threads with a frame each, the first call of `::recv` before all of a header was sent. -/
def sampleActions : List (Action (Fin 2)) :=
  [.lock 1, .send 3, .recv 2, .send 1, .recv 2, .send 8, .unlock, .lock 0, .send 4, .recv 8,
    .recv 0, .send 1, .send 8, .unlock, .close, .recv 4, .recv 1, .recv 8, .recv 0, .recv 0]

theorem frames_delivered_sample :
    ∃ c : Connection (Fin 2), c.returned = [some [], some [7], none] ∧
      c.sentBy 0 ++ c.queue 0 = [[7]] ∧ c.sentBy 1 ++ c.queue 1 = [[]] := by
  obtain ⟨c, hrun, hreturned⟩ : ∃ c, Run.tryExec act sampleActions
      { queue := ![[[7]], [[]]], calls := 3 } = some c ∧ c.returned = [some [], some [7], none] :=
    Run.exists_tryExec (by decide +kernel)
  obtain ⟨hshare, _⟩ := frames_delivered _ 3 (by decide) sampleActions c (.of_tryExec hrun)
  exact ⟨c, hreturned, hshare 0, hshare 1⟩

end Framing

end AdapterFabric
