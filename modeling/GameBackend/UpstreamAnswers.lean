import GameBackend.TcpClient

/-!
# Answers of the upstream service

In every run of an upstream client pool, whatever connects, writes and reads do, a call
that returns a response returns the service's answer to the frame that this very call
wrote, and no call writes its request more than once.

The invariant is about the connection a client keeps: between two calls nothing on it
is unread or unanswered (`Wire.Quiet`), because a call that fails closes it.
-/

namespace GameBackend

namespace Wire

/-- No byte of call `c`. -/
def Free (w : Wire) (c : ℕ) : Prop := ∀ x ∈ w.sent, x.1 ≠ c

/-- Every frame that was sent has been answered and every answer read. -/
def Quiet (w : Wire) : Prop := w.taken = w.sent.length ∧ w.received = w.answered

/-- The frames were read one behind the other. -/
def Ordered (w : Wire) : Prop :=
  (w.served.map Served.start).Pairwise (· < ·) ∧ ∀ s ∈ w.served, s.start < w.taken

/-- `w'` is a later state of `w`, without new bytes of call `c`. -/
def Extends (c : ℕ) (w w' : Wire) : Prop :=
  (∃ bytes, w'.sent = w.sent ++ bytes ∧ ∀ x ∈ bytes, x.1 ≠ c) ∧
    ∃ later, w'.served = w.served ++ later ∧ ∀ s ∈ later, w.taken ≤ s.start

theorem Extends.refl (c : ℕ) (w : Wire) : w.Extends c w :=
  ⟨⟨[], by simp, by simp⟩, ⟨[], by simp, by simp⟩⟩

theorem extends_serve (c : ℕ) (w : Wire) (answer : Packet) : w.Extends c (w.serve answer) :=
  ⟨⟨[], by simp [serve], by simp⟩, ⟨_, rfl, by simp⟩⟩

theorem extends_write {c c' : ℕ} (w : Wire) (bytes : List UInt8) (h : c' ≠ c) :
    w.Extends c (w.write c' bytes) :=
  ⟨⟨_, rfl, by simp [h]⟩, ⟨[], by simp [write], by simp⟩⟩

theorem Extends.free {c : ℕ} {w w' : Wire} (h : w.Extends c w') (hw : w.Free c) : w'.Free c := by
  obtain ⟨⟨bytes, hsent, hbytes⟩, -⟩ := h
  intro x hx
  rw [hsent, List.mem_append] at hx
  exact hx.elim (hw x) (hbytes x)

theorem Ordered.serve {w : Wire} (h : w.Ordered) (answer : Packet) : (w.serve answer).Ordered := by
  obtain ⟨hstarts, hlt⟩ := h
  have hpos := frameSize_pos w.pending
  refine ⟨?_, fun s hs => ?_⟩
  · simp only [Wire.serve, List.map_append, List.map_cons, List.map_nil, List.pairwise_append]
    refine ⟨hstarts, List.pairwise_singleton _ _, fun start hstart last hlast => ?_⟩
    obtain ⟨s, hs, rfl⟩ := List.mem_map.mp hstart
    obtain rfl : last = w.taken := by simpa using hlast
    exact hlt s hs
  · simp only [Wire.serve, List.mem_append, List.mem_singleton] at hs ⊢
    obtain hs | rfl := hs
    · have := hlt s hs
      omega
    · change w.taken < _
      omega

end Wire

namespace Upstream

/-! ## What is said of a call -/

/-- No byte of call `c` is on any connection. -/
def Unsent (u : Upstream) (c : ℕ) : Prop := ∀ j, (u.wires j).Free c

/-- The bytes of call `c` are on connection `j` only, all behind `before`. -/
def Apart (u : Upstream) (c j : ℕ) (before : List (ℕ × UInt8)) : Prop :=
  (∀ j', j' ≠ j → (u.wires j').Free c) ∧ ∀ x ∈ before, x.1 ≠ c

/-- The bytes that call `c` has written stand together on one connection, and are a
front of the frame of its request. -/
def WrittenOnce (u : Upstream) (c : ℕ) : Prop :=
  ∃ j before written after,
    (u.wires j).sent = before ++ written.map (fun byte => (c, byte)) ++ after ∧
    written <+: (u.calls c).request.encode ∧
    (∀ x ∈ before ++ after, x.1 ≠ c) ∧ ∀ j', j' ≠ j → (u.wires j').Free c

/-- The frame of call `c` stands whole on a connection, and the service has answered the
frame at that place, which is the request of the call, with `response` and no other. -/
def Answered (u : Upstream) (c : ℕ) (response : Packet) : Prop :=
  ∃ j before after,
    (u.wires j).sent =
      before ++ (u.calls c).request.encode.map (fun byte => (c, byte)) ++ after ∧
    ⟨before.length, (u.calls c).request, response⟩ ∈ (u.wires j).served ∧
    ∀ s ∈ (u.wires j).served, s.start = before.length → s.answer = response

variable {u u' : Upstream} {c : ℕ}

theorem Unsent.extends (h : u.Unsent c) (hext : ∀ j, (u.wires j).Extends c (u'.wires j)) :
    u'.Unsent c := fun j => (hext j).free (h j)

theorem Apart.extends {j : ℕ} {before : List (ℕ × UInt8)} (h : u.Apart c j before)
    (hext : ∀ j', j' ≠ j → (u.wires j').Extends c (u'.wires j')) : u'.Apart c j before :=
  ⟨fun j' hj' => (hext j' hj').free (h.1 j' hj'), h.2⟩

theorem Unsent.writtenOnce (h : u.Unsent c) : u.WrittenOnce c :=
  ⟨0, (u.wires 0).sent, [], [], by simp, List.nil_prefix, by simpa [Wire.Free] using h 0,
    fun j' _ => h j'⟩

theorem WrittenOnce.extends (h : u.WrittenOnce c)
    (hext : ∀ j, (u.wires j).Extends c (u'.wires j))
    (hrequest : (u'.calls c).request = (u.calls c).request) : u'.WrittenOnce c := by
  obtain ⟨j, before, written, after, hsent, hfront, hfree, hother⟩ := h
  obtain ⟨⟨bytes, hbytes, hnew⟩, -⟩ := hext j
  refine ⟨j, before, written, after ++ bytes, ?_, hrequest ▸ hfront, fun x hx => ?_,
    fun j' hj' => (hext j').free (hother j' hj')⟩
  · rw [hbytes, hsent, List.append_assoc]
  · rw [← List.append_assoc, List.mem_append] at hx
    exact hx.elim (hfree x) (hnew x)

theorem Answered.extends {response : Packet} (h : u.Answered c response)
    (hext : ∀ j, (u.wires j).Extends c (u'.wires j)) (hordered : ∀ j, (u.wires j).Ordered)
    (hrequest : (u'.calls c).request = (u.calls c).request) : u'.Answered c response := by
  obtain ⟨j, before, after, hsent, hserved, honly⟩ := h
  obtain ⟨⟨bytes, hbytes, -⟩, later, hlater, hstart⟩ := hext j
  have hbefore := (hordered j).2 _ hserved
  refine ⟨j, before, after ++ bytes, ?_, ?_, fun s hs heq => ?_⟩
  · rw [hbytes, hsent, hrequest, List.append_assoc]
  · rw [hlater, hrequest]
    exact List.mem_append_left _ hserved
  · rw [hlater, List.mem_append] at hs
    obtain hs | hs := hs
    · exact honly s hs heq
    · -- a later frame starts behind all that were read
      have hge := hstart s hs
      rw [heq] at hge
      exact absurd hbefore (Nat.not_lt.mpr hge)

/-! ## The invariant -/

/-- Call `c` is under way at client `i`. -/
def Serving (u : Upstream) (i c : ℕ) : Prop :=
  c < u.called ∧ (u.calls c).index = i ∧ (u.calls c).result = none

/-- What stands on the connection of a client while call `c` is in a loop: `before` is
what earlier calls wrote. -/
def InStage (w : Wire) (request : Packet) (c : ℕ) (before : List (ℕ × UInt8)) : Stage → Prop
  | .connecting => False
  | .writing encoded n =>
    encoded = request.encode ∧ n < encoded.length ∧
      w.sent = before ++ (encoded.take n).map (fun byte => (c, byte)) ∧
      w.taken = before.length ∧ w.received = w.answered
  | .reading buffer =>
    w.sent = before ++ request.encode.map (fun byte => (c, byte)) ∧
      ((w.taken = before.length ∧ buffer = [] ∧ w.received = w.answered) ∨
        ∃ earlier answer missing, w.served = earlier ++ [⟨before.length, request, answer⟩] ∧
          answer.WellFormed ∧ w.taken = w.sent.length ∧
          w.received = (earlier.flatMap fun s => s.answer.encode) ++ buffer ∧
          missing ≠ [] ∧ answer.encode = buffer ++ missing)

/-- What holds of a client, by its connection and what runs at it. -/
def ClientSound (u : Upstream) (i : ℕ) : Prop :=
  match (u.clients i).socketFd, (u.clients i).running with
  | none, none => True
  | some j, none => j < u.connected ∧ (u.wires j).Quiet
  | none, some (c, stage) => stage = .connecting ∧ u.Serving i c ∧ u.Unsent c
  | some j, some (c, stage) => j < u.connected ∧ u.Serving i c ∧ ∃ before,
      u.Apart c j before ∧ InStage (u.wires j) (u.calls c).request c before stage

/-- What holds of a call. -/
structure CallSound (u : Upstream) (c : ℕ) : Prop where
  sized : c < u.called → (u.calls c).request.Sized
  later : u.called ≤ c → u.Unsent c
  waiting : u.Waiting c → u.Unsent c
  once : u.WrittenOnce c
  answered : ∀ response, (u.calls c).result = some (.ok response) → u.Answered c response

structure Sound (u : Upstream) : Prop where
  fresh : ∀ j, u.connected ≤ j → u.wires j = {}
  /-- no connection is kept by two clients -/
  single : ∀ i i' j, (u.clients i).socketFd = some j → (u.clients i').socketFd = some j → i = i'
  ordered : ∀ j, (u.wires j).Ordered
  client : ∀ i, u.ClientSound i
  call : ∀ c, u.CallSound c

theorem sound_create (host : String) (port poolSize : ℤ) :
    (create host port poolSize).Sound where
  fresh _ _ := rfl
  single i i' j h := by cases h
  ordered _ := ⟨List.Pairwise.nil, by simp [create]⟩
  client _ := trivial
  call c := {
    sized := fun h => absurd h (Nat.not_lt_zero c)
    later := fun _ j => by simp [Wire.Free, create]
    waiting := fun h => absurd h.1 (Nat.not_lt_zero c)
    once := Unsent.writtenOnce fun j => by simp [Wire.Free, create]
    answered := fun response h => by cases h }

/-- A step that does not touch client `i`, nor its connection, nor its call. -/
theorem ClientSound.frame {i : ℕ} (h : u.ClientSound i) (hclient : u'.clients i = u.clients i)
    (hconnected : u.connected ≤ u'.connected)
    (hwire : ∀ j, (u.clients i).socketFd = some j → u'.wires j = u.wires j)
    (hcall : ∀ c stage, (u.clients i).running = some (c, stage) → u.Serving i c →
      u'.calls c = u.calls c ∧ c < u'.called ∧ ∀ j, (u.wires j).Extends c (u'.wires j)) :
    u'.ClientSound i := by
  unfold ClientSound at h ⊢
  rw [hclient]
  cases hsocket : (u.clients i).socketFd with
  | none =>
    cases hrunning : (u.clients i).running with
    | none => trivial
    | some job =>
      rw [hsocket, hrunning] at h
      obtain ⟨c, stage⟩ := job
      obtain ⟨hstage, hserving, hunsent⟩ := h
      obtain ⟨hcalls, hcalled, hext⟩ := hcall c stage hrunning hserving
      exact ⟨hstage, ⟨hcalled, hcalls ▸ hserving.2⟩, hunsent.extends hext⟩
  | some j =>
    cases hrunning : (u.clients i).running with
    | none =>
      rw [hsocket, hrunning] at h
      exact ⟨h.1.trans_le hconnected, (hwire j hsocket).symm ▸ h.2⟩
    | some job =>
      rw [hsocket, hrunning] at h
      obtain ⟨c, stage⟩ := job
      obtain ⟨hj, hserving, before, hapart, hstage⟩ := h
      obtain ⟨hcalls, hcalled, hext⟩ := hcall c stage hrunning hserving
      refine ⟨hj.trans_le hconnected, ⟨hcalled, hcalls ▸ hserving.2⟩, before,
        hapart.extends fun j' _ => hext j', ?_⟩
      rw [hwire j hsocket, hcalls]
      exact hstage

/-- A step that does not touch call `c`. -/
theorem CallSound.frame (h : u.CallSound c) (hcall : u'.calls c = u.calls c)
    (hcalled : u'.called = u.called) (hwaiting : u'.Waiting c → u.Waiting c)
    (hext : ∀ j, (u.wires j).Extends c (u'.wires j)) (hordered : ∀ j, (u.wires j).Ordered) :
    u'.CallSound c where
  sized hc := hcall ▸ h.sized (hcalled ▸ hc)
  later hc := (h.later (hcalled ▸ hc)).extends hext
  waiting hw := (h.waiting (hwaiting hw)).extends hext
  once := h.once.extends hext (congrArg SendCall.request hcall)
  answered response hresult :=
    (h.answered response (hcall ▸ hresult)).extends hext hordered
      (congrArg SendCall.request hcall)

/-- A call that is under way runs at its own client only. -/
theorem Sound.running (h : u.Sound) {i : ℕ} {stage : Stage}
    (hrunning : (u.clients i).running = some (c, stage)) : u.Serving i c := by
  have hclient := h.client i
  unfold ClientSound at hclient
  cases hsocket : (u.clients i).socketFd with
  | none =>
    rw [hsocket, hrunning] at hclient
    exact hclient.2.1
  | some j =>
    rw [hsocket, hrunning] at hclient
    exact hclient.2.1

/-- Where a call with a connection is. -/
theorem Sound.stage (h : u.Sound) {i j : ℕ} {stage : Stage}
    (hrunning : (u.clients i).running = some (c, stage))
    (hsocket : (u.clients i).socketFd = some j) :
    j < u.connected ∧ ∃ before, u.Apart c j before ∧
      InStage (u.wires j) (u.calls c).request c before stage := by
  have hclient := h.client i
  unfold ClientSound at hclient
  rw [hsocket, hrunning] at hclient
  exact ⟨hclient.1, hclient.2.2⟩

/-! ## Steps -/

theorem Sound.call_step (h : u.Sound) {request : Packet} (hsized : request.Sized) :
    (u.call request).Sound := by
  -- the new call is the only change that matters
  have hcalls : (u.call request).clients = u.clients ∧ (u.call request).wires = u.wires ∧
      (u.call request).connected = u.connected ∧ (u.call request).called = u.called + 1 ∧
      (∀ c, c ≠ u.called → (u.call request).calls c = u.calls c) ∧
      ((u.call request).calls u.called).request = request ∧
      ∀ response, ((u.call request).calls u.called).result ≠ some (.ok response) := by
    unfold Upstream.call
    split_ifs with hcount
    · exact ⟨rfl, rfl, rfl, rfl, fun c hc => Function.update_of_ne hc _ _, by simp, by simp⟩
    · exact ⟨rfl, rfl, rfl, rfl, fun c hc => Function.update_of_ne hc _ _, by simp, by simp⟩
  obtain ⟨hclients, hwires, hconnected, hcalled, hold, hrequest, hresult⟩ := hcalls
  have hext (c j : ℕ) : (u.wires j).Extends c ((u.call request).wires j) := by
    rw [hwires]
    exact .refl c _
  refine ⟨fun j hj => ?_, fun i i' j => ?_, fun j => ?_, fun i => ?_, fun c => ?_⟩
  · rw [hwires]
    exact h.fresh j (hconnected ▸ hj)
  · rw [hclients]
    exact h.single i i' j
  · rw [hwires]
    exact h.ordered j
  · refine (h.client i).frame (congrFun hclients i) hconnected.ge (fun j _ => congrFun hwires j)
      fun c stage _ hserving => ⟨hold c hserving.1.ne, ?_, hext c⟩
    rw [hcalled]
    exact hserving.1.trans (Nat.lt_succ_self _)
  · obtain hlt | heq | hgt := lt_trichotomy c u.called
    · have hsame := hold c hlt.ne
      have hwait : (u.call request).Waiting c → u.Waiting c := by
        rintro ⟨-, hnone, hne⟩
        rw [hsame] at hnone hne
        exact ⟨hlt, hnone, hclients ▸ hne⟩
      have hsound := h.call c
      exact {
        sized := fun _ => hsame ▸ hsound.sized hlt
        later := fun hle => by omega
        waiting := fun hw => (hsound.waiting (hwait hw)).extends (hext c)
        once := hsound.once.extends (hext c) (congrArg SendCall.request hsame)
        answered := fun response hr => (hsound.answered response (hsame ▸ hr)).extends (hext c)
          h.ordered (congrArg SendCall.request hsame) }
    · subst heq
      have hunsent := ((h.call u.called).later le_rfl).extends (hext u.called)
      exact {
        sized := fun _ => by rwa [hrequest]
        later := fun _ => hunsent
        waiting := fun _ => hunsent
        once := hunsent.writtenOnce
        answered := fun response hr => absurd hr (hresult response) }
    · have hunsent := ((h.call c).later hgt.le).extends (hext c)
      have hsame := hold c hgt.ne'
      exact {
        sized := fun hlt => by omega
        later := fun _ => hunsent
        waiting := fun _ => hunsent
        once := hunsent.writtenOnce
        answered := fun response hr => ((h.call c).answered response (hsame ▸ hr)).extends (hext c)
          h.ordered (congrArg SendCall.request hsame) }

theorem Sound.socket_lt (h : u.Sound) {i j : ℕ} (hsocket : (u.clients i).socketFd = some j) :
    j < u.connected := by
  have hclient := h.client i
  unfold ClientSound at hclient
  rw [hsocket] at hclient
  cases hrunning : (u.clients i).running with
  | none =>
    rw [hrunning] at hclient
    exact hclient.1
  | some job =>
    rw [hrunning] at hclient
    exact hclient.1

/-- A step of call `c` at its client `i`: what is left to show is what it does to these
two and to the connection. -/
theorem Sound.at_client (h : u.Sound) {i : ℕ} (hindex : (u.calls c).index = i)
    (hrunning : ∀ c', c' ≠ c → (u.clients i).running.map Prod.fst ≠ some c')
    (hclients : ∀ i', i' ≠ i → u'.clients i' = u.clients i')
    (hcalls : ∀ c', c' ≠ c → u'.calls c' = u.calls c')
    (hcalled : u'.called = u.called) (hconnected : u.connected ≤ u'.connected)
    (hwires : ∀ i' j, i' ≠ i → (u.clients i').socketFd = some j → u'.wires j = u.wires j)
    (hext : ∀ c', c' ≠ c → ∀ j, (u.wires j).Extends c' (u'.wires j))
    (hsocket : ∀ j, (u'.clients i).socketFd = some j →
      (u.clients i).socketFd = some j ∨ u.connected ≤ j)
    (hfresh : ∀ j, u'.connected ≤ j → u'.wires j = {})
    (hordered : ∀ j, (u'.wires j).Ordered) (hclient : u'.ClientSound i)
    (hcall : u'.CallSound c) : u'.Sound where
  fresh := hfresh
  single i₁ i₂ j h₁ h₂ := by
    -- the client keeps its connection or has a new one, which nobody else has
    by_cases hi₁ : i₁ = i
    · by_cases hi₂ : i₂ = i
      · rw [hi₁, hi₂]
      · subst hi₁
        rw [hclients i₂ hi₂] at h₂
        obtain hold | hnew := hsocket j h₁
        · exact h.single _ _ j hold h₂
        · exact absurd (h.socket_lt h₂) (Nat.not_lt.mpr hnew)
    · rw [hclients i₁ hi₁] at h₁
      by_cases hi₂ : i₂ = i
      · subst hi₂
        obtain hold | hnew := hsocket j h₂
        · exact h.single _ _ j h₁ hold
        · exact absurd (h.socket_lt h₁) (Nat.not_lt.mpr hnew)
      · rw [hclients i₂ hi₂] at h₂
        exact h.single _ _ j h₁ h₂
  ordered := hordered
  client i' := by
    by_cases hi' : i' = i
    · exact hi' ▸ hclient
    · refine (h.client i').frame (hclients i' hi') hconnected (fun j => hwires i' j hi')
        fun c' stage _ hserving => ?_
      have hc' : c' ≠ c := by
        rintro rfl
        exact hi' (hserving.2.1.symm.trans hindex)
      exact ⟨hcalls c' hc', hcalled ▸ hserving.1, hext c' hc'⟩
  call c' := by
    by_cases hc' : c' = c
    · exact hc' ▸ hcall
    · refine (h.call c').frame (hcalls c' hc') hcalled ?_ (hext c' hc') h.ordered
      rintro ⟨hlt, hnone, hne⟩
      rw [hcalls c' hc'] at hnone hne
      refine ⟨hcalled ▸ hlt, hnone, ?_⟩
      by_cases hi' : (u.calls c').index = i
      · rw [hi']
        exact hrunning c' hc'
      · rwa [hclients _ hi'] at hne

/-- Nothing else runs at the client of a call that is under way. -/
theorem running_ne {i : ℕ} {stage : Stage} (h : (u.clients i).running = some (c, stage))
    (c' : ℕ) (hc' : c' ≠ c) : (u.clients i).running.map Prod.fst ≠ some c' := by
  rw [h]
  intro heq
  exact hc' (Option.some.inj heq).symm

/-- A call that fails and leaves no connection. -/
theorem Sound.fail (h : u.Sound) {i : ℕ} {stage : Stage}
    (hrunning : (u.clients i).running = some (c, stage)) (message : String) :
    (u.finish i c none (.error message)).Sound := by
  have hserving := h.running hrunning
  have hclient : (u.finish i c none (.error message)).clients i = ⟨none, none⟩ :=
    Function.update_self i _ _
  have hresult : (u.finish i c none (.error message)).calls c =
      { u.calls c with result := some (.error message) } := Function.update_self c _ _
  have hold := h.call c
  refine h.at_client hserving.2.1 (running_ne hrunning)
    (fun i' hi' => Function.update_of_ne hi' _ _) (fun c' hc' => Function.update_of_ne hc' _ _)
    rfl le_rfl (fun _ _ _ _ => rfl) (fun c' _ j => .refl c' _) (fun j hj => ?_)
    h.fresh h.ordered ?_ ?_
  · rw [hclient] at hj
    cases hj
  · unfold ClientSound
    rw [hclient]
    trivial
  · refine ⟨fun hlt => ?_, fun hle => absurd hserving.1 (Nat.not_lt.mpr hle), fun hw => ?_, ?_,
      fun response hr => ?_⟩
    · rw [hresult]
      exact hold.sized hlt
    · have hnone := hw.2.1
      rw [hresult] at hnone
      cases hnone
    · exact hold.once.extends (fun j => .refl c _) (by rw [hresult])
    · rw [hresult] at hr
      cases hr

/-- The start of `WritePacket` on a connection with nothing of the call. -/
theorem inStage_start {w : Wire} {request : Packet} (hquiet : w.Quiet) :
    InStage w request c w.sent (.writing (encodePacket request.header request.body) 0) := by
  have hlength := request.encode_length
  rw [kPacketHeaderSize] at hlength
  refine ⟨rfl, ?_, by simp, hquiet.1, hquiet.2⟩
  change 0 < request.encode.length
  omega

theorem Sound.lock (h : u.Sound) (hstep : u.lock c = some u') : u'.Sound := by
  simp only [Upstream.lock] at hstep
  split_ifs at hstep with hfree
  obtain ⟨hwaiting, hidle⟩ := hfree
  have hold := h.call c
  have hunsent := hold.waiting hwaiting
  have hserving : u.Serving (u.calls c).index c :=
    ⟨hwaiting.1, rfl, Option.isNone_iff_eq_none.mp hwaiting.2.1⟩
  have hsound (client : PersistentTcpClient)
      (hsocket : client.socketFd = (u.clients (u.calls c).index).socketFd)
      (hclient : (u.setClient (u.calls c).index client).ClientSound (u.calls c).index)
      (hruns : client.running.map Prod.fst = some c) :
      (u.setClient (u.calls c).index client).Sound := by
    refine h.at_client rfl (fun c' _ => ?_)
      (fun i' hi' => Function.update_of_ne hi' _ _) (fun c' _ => rfl) rfl le_rfl
      (fun _ _ _ _ => rfl) (fun c' _ j => .refl c' _) (fun j hj => .inl ?_) h.fresh h.ordered
      hclient ⟨hold.sized, hold.later, fun hw => ?_, hold.once, hold.answered⟩
    · rw [hidle]
      exact fun heq => nomatch heq
    · rw [← hsocket]
      have := Function.update_self (u.calls c).index client u.clients
      exact (congrArg PersistentTcpClient.socketFd this).symm.trans hj
    · refine absurd ?_ hw.2.2
      have := Function.update_self (u.calls c).index client u.clients
      exact (congrArg (fun client => client.running.map Prod.fst) this).trans hruns
  have hclient := h.client (u.calls c).index
  unfold ClientSound at hclient
  rw [hidle] at hclient
  cases hsocket : (u.clients (u.calls c).index).socketFd with
  | none =>
    simp only [hsocket] at hstep
    cases hstep
    refine hsound _ hsocket.symm ?_ rfl
    unfold ClientSound
    simp only [setClient, Function.update_self]
    exact ⟨trivial, hserving, hunsent⟩
  | some j =>
    simp only [hsocket] at hstep hclient
    cases hstep
    refine hsound _ hsocket.symm ?_ rfl
    unfold ClientSound
    simp only [setClient, Function.update_self]
    exact ⟨hclient.1, hserving, (u.wires j).sent,
      ⟨fun j' _ => hunsent j', hunsent j⟩, inStage_start hclient.2⟩

theorem Sound.connect (h : u.Sound) {i : ℕ} {outcome : ConnectOutcome}
    (hstep : u.connect i outcome = some u') : u'.Sound := by
  unfold Upstream.connect at hstep
  split at hstep
  · rename_i c hrunning
    cases outcome with
    | unresolved =>
      cases hstep
      exact h.fail hrunning _
    | refused =>
      cases hstep
      exact h.fail hrunning _
    | connected =>
      cases hstep
      have hserving := h.running hrunning
      have hold := h.call c
      have hnew := h.fresh u.connected le_rfl
      -- the call has no connection yet
      have hunsent : u.Unsent c := by
        have hclient := h.client i
        unfold ClientSound at hclient
        cases hsocket : (u.clients i).socketFd with
        | none =>
          rw [hsocket, hrunning] at hclient
          exact hclient.2.2
        | some j =>
          obtain ⟨-, before, -, hstage⟩ := h.stage hrunning hsocket
          exact hstage.elim
      refine h.at_client hserving.2.1 (running_ne hrunning)
        (fun i' hi' => Function.update_of_ne hi' _ _) (fun c' _ => rfl) rfl (Nat.le_succ _)
        (fun _ _ _ _ => rfl) (fun c' _ j => .refl c' _) (fun j hj => .inr ?_)
        (fun j hj => h.fresh j (Nat.le_of_succ_le hj)) h.ordered ?_
        ⟨hold.sized, hold.later, fun hw => ?_, hold.once, hold.answered⟩
      · simp only [setClient, Function.update_self, Option.some.injEq] at hj
        exact hj.le
      · unfold ClientSound
        simp only [setClient, Function.update_self]
        refine ⟨Nat.lt_succ_self _, hserving, [], ⟨fun j' _ => hunsent j', by simp⟩, ?_⟩
        rw [hnew]
        exact inStage_start ⟨rfl, rfl⟩
      · refine absurd ?_ hw.2.2
        simp only [setClient, hserving.2.1, Function.update_self, Option.map_some]
  · cases hstep

/-- What a front of the frame has put on the connection. -/
theorem writtenOnce_of_front {j : ℕ} {before : List (ℕ × UInt8)} {written : List UInt8}
    (hapart : u.Apart c j before)
    (hsent : (u.wires j).sent = before ++ written.map (fun byte => (c, byte)))
    (hfront : written <+: (u.calls c).request.encode) : u.WrittenOnce c := by
  refine ⟨j, before, written, [], by rw [hsent, List.append_nil], hfront, ?_, hapart.1⟩
  rw [List.append_nil]
  exact hapart.2

theorem InStage.written {w : Wire} {request : Packet} {before : List (ℕ × UInt8)}
    {stage : Stage} (h : InStage w request c before stage) :
    ∃ written, w.sent = before ++ written.map (fun byte => (c, byte)) ∧
      written <+: request.encode := by
  cases stage with
  | connecting => exact h.elim
  | writing encoded n =>
    obtain ⟨rfl, -, hsent, -⟩ := h
    exact ⟨_, hsent, List.take_prefix _ _⟩
  | reading buffer => exact ⟨_, h.1, List.prefix_rfl⟩

/-- When one connection changes, the others stay. -/
theorem extends_update {j : ℕ} {w' : Wire} (h : (u.wires j).Extends c w') (j' : ℕ) :
    (u.wires j').Extends c (Function.update u.wires j w' j') := by
  by_cases heq : j' = j
  · subst heq
    rw [Function.update_self]
    exact h
  · rw [Function.update_of_ne heq]
    exact .refl c _

theorem Sound.ordered_update (h : u.Sound) {j : ℕ} {w' : Wire} (hw' : w'.Ordered) (j' : ℕ) :
    (Function.update u.wires j w' j').Ordered := by
  by_cases heq : j' = j
  · rw [heq, Function.update_self]
    exact hw'
  · rw [Function.update_of_ne heq]
    exact h.ordered j'

/-- A call in a loop goes on with the same connection. -/
theorem Sound.progress (h : u.Sound) {i j : ℕ} {stage stage' : Stage} {w' : Wire}
    (hrunning : (u.clients i).running = some (c, stage))
    (hsocket : (u.clients i).socketFd = some j)
    (hext : ∀ c', c' ≠ c → (u.wires j).Extends c' w') (hordered : w'.Ordered)
    (hstage : ∀ before, InStage (u.wires j) (u.calls c).request c before stage →
      InStage w' (u.calls c).request c before stage') :
    ((u.setWire j w').setClient i ⟨some j, some (c, stage')⟩).Sound := by
  have hserving := h.running hrunning
  have hold := h.call c
  obtain ⟨hj, before, hapart, hin⟩ := h.stage hrunning hsocket
  have hin' := hstage before hin
  have hwires (j' : ℕ) (hj' : j' ≠ j) : Function.update u.wires j w' j' = u.wires j' :=
    Function.update_of_ne hj' _ _
  have hwire : Function.update u.wires j w' j = w' := Function.update_self j w' u.wires
  have hapart' : ((u.setWire j w').setClient i ⟨some j, some (c, stage')⟩).Apart c j before :=
    ⟨fun j' hj' => by
      change (Function.update u.wires j w' j').Free c
      rw [hwires j' hj']
      exact hapart.1 j' hj', hapart.2⟩
  refine h.at_client hserving.2.1 (running_ne hrunning)
    (fun i' hi' => Function.update_of_ne hi' _ _) (fun _ _ => rfl) rfl le_rfl
    (fun i' j' hi' hsocket' => hwires j' ?_) (fun c' hc' => extends_update (hext c' hc'))
    (fun j' hj' => .inl ?_) (fun j' hj' => (hwires j' ?_).trans (h.fresh j' hj'))
    (h.ordered_update hordered) ?_
    ⟨hold.sized, fun hle => absurd hserving.1 (Nat.not_lt.mpr hle), fun hw => ?_, ?_, ?_⟩
  · rintro rfl
    exact hi' (h.single _ _ _ hsocket' hsocket)
  · simp only [setClient, setWire, Function.update_self, Option.some.injEq] at hj'
    rw [hsocket, hj']
  · exact (hj.trans_le hj').ne'
  · unfold ClientSound
    simp only [setClient, setWire, Function.update_self]
    exact ⟨hj, hserving, before, hapart', hin'⟩
  · refine absurd ?_ hw.2.2
    simp only [setClient, setWire, hserving.2.1, Function.update_self, Option.map_some]
  · obtain ⟨written, hsent, hfront⟩ := hin'.written
    exact writtenOnce_of_front hapart' ((congrArg Wire.sent hwire).trans hsent) hfront
  · intro response hr
    have hnone : (u.calls c).result = some (.ok response) := hr
    rw [hserving.2.2] at hnone
    cases hnone

/-- What one round of `WritePacket` leaves on the connection. -/
theorem inStage_sent {w : Wire} {request : Packet} {before : List (ℕ × UInt8)}
    {encoded : List UInt8} {n count : ℕ}
    (h : InStage w request c before (.writing encoded n)) :
    InStage (w.write c ((encoded.drop n).take count)) request c before
      (if n + count < encoded.length then .writing encoded (n + count) else .reading []) := by
  obtain ⟨rfl, hn, hsent, htaken, hreceived⟩ := h
  have hsent' : (w.write c ((request.encode.drop n).take count)).sent =
      before ++ (request.encode.take (n + count)).map fun byte => (c, byte) := by
    rw [Wire.write, hsent, List.append_assoc, ← List.map_append, List.take_add]
  split_ifs with hlt
  · exact ⟨rfl, hlt, hsent', htaken, hreceived⟩
  · refine ⟨?_, .inl ⟨htaken, rfl, hreceived⟩⟩
    rw [hsent', List.take_of_length_le (Nat.not_lt.mp hlt)]

theorem Sound.send (h : u.Sound) {i : ℕ} {poll : PollOutcome} {outcome : SendOutcome}
    (hstep : u.send i poll outcome = some u') : u'.Sound := by
  unfold Upstream.send at hstep
  split at hstep
  · rename_i c encoded writtenTotal j hrunning hsocket
    split at hstep
    · cases hstep
      exact h.fail hrunning _
    · cases outcome with
      | interrupted =>
        cases hstep
        exact h
      | failed text =>
        cases hstep
        exact h.fail hrunning _
      | sent count =>
        have hnext := h.progress hrunning hsocket
          (fun c' hc' => Wire.extends_write (u.wires j) ((encoded.drop writtenTotal).take count)
            hc'.symm) (h.ordered j) (fun before => inStage_sent)
        simp only at hstep
        split_ifs at hstep with hcount hlt
        · rw [if_pos hlt] at hnext
          cases hstep
          exact hnext
        · rw [if_neg hlt] at hnext
          cases hstep
          exact hnext
  · cases hstep

/-- A call returns the response and keeps its connection. -/
theorem Sound.respond (h : u.Sound) {i j : ℕ} {stage : Stage} {w' : Wire} {response : Packet}
    (hrunning : (u.clients i).running = some (c, stage))
    (hsocket : (u.clients i).socketFd = some j)
    (hext : ∀ c', (u.wires j).Extends c' w') (hordered : w'.Ordered) (hquiet : w'.Quiet)
    (hanswered : ∃ before after, w'.sent =
        before ++ (u.calls c).request.encode.map (fun byte => (c, byte)) ++ after ∧
      ⟨before.length, (u.calls c).request, response⟩ ∈ w'.served ∧
      ∀ s ∈ w'.served, s.start = before.length → s.answer = response) :
    ((u.setWire j w').finish i c (some j) (.ok response)).Sound := by
  have hserving := h.running hrunning
  have hold := h.call c
  have hj := h.socket_lt hsocket
  have hwires (j' : ℕ) (hj' : j' ≠ j) : Function.update u.wires j w' j' = u.wires j' :=
    Function.update_of_ne hj' _ _
  have hwire : Function.update u.wires j w' j = w' := Function.update_self j w' u.wires
  have hresult : ((u.setWire j w').finish i c (some j) (.ok response)).calls c =
      { u.calls c with result := some (.ok response) } := Function.update_self c _ _
  refine h.at_client hserving.2.1 (running_ne hrunning)
    (fun i' hi' => Function.update_of_ne hi' _ _) (fun c' hc' => Function.update_of_ne hc' _ _)
    rfl le_rfl (fun i' j' hi' hsocket' => hwires j' ?_) (fun c' _ => extends_update (hext c'))
    (fun j' hj' => .inl ?_) (fun j' hj' => (hwires j' ?_).trans (h.fresh j' hj'))
    (h.ordered_update hordered) ?_
    ⟨fun hlt => ?_, fun hle => absurd hserving.1 (Nat.not_lt.mpr hle), fun hw => ?_,
      hold.once.extends (extends_update (hext c)) (by rw [hresult]), fun response' hr => ?_⟩
  · rintro rfl
    exact hi' (h.single _ _ _ hsocket' hsocket)
  · simp only [finish, setClient, setWire, Function.update_self, Option.some.injEq] at hj'
    rw [hsocket, hj']
  · exact (hj.trans_le hj').ne'
  · unfold ClientSound
    simp only [finish, setClient, setWire, Function.update_self]
    exact ⟨hj, hquiet⟩
  · rw [hresult]
    exact hold.sized hlt
  · have hnone := hw.2.1
    rw [hresult] at hnone
    cases hnone
  · rw [hresult] at hr
    obtain rfl : response = response' := by simpa using hr
    obtain ⟨before, after, hsent, hserved, honly⟩ := hanswered
    refine ⟨j, before, after, ?_, ?_, ?_⟩
    · rw [hresult]
      exact (congrArg Wire.sent hwire).trans hsent
    · rw [hresult]
      exact (congrArg Wire.served hwire).symm ▸ hserved
    · exact (congrArg Wire.served hwire).symm ▸ honly

/-- What one round of `ReadPacket` finds in its buffer: not yet an answer, or the answer
to the request of the call, and then nothing is left on the connection. -/
theorem inStage_received {w : Wire} {request : Packet} {before : List (ℕ × UInt8)}
    {buffer chunk : List UInt8} (hordered : w.Ordered)
    (h : InStage w request c before (.reading buffer))
    (hchunk : w.received ++ chunk <+: w.answered) :
    (tryExtractPacket (buffer ++ chunk) = (none, buffer ++ chunk) ∧
      InStage (w.read chunk) request c before (.reading (buffer ++ chunk))) ∨
    ∃ response, tryExtractPacket (buffer ++ chunk) = (some response, []) ∧
      (w.read chunk).Quiet ∧ w.sent = before ++ request.encode.map (fun byte => (c, byte)) ∧
      ⟨before.length, request, response⟩ ∈ w.served ∧
      ∀ s ∈ w.served, s.start = before.length → s.answer = response := by
  obtain ⟨hsent, ⟨htaken, rfl, hreceived⟩ | ⟨earlier, answer, missing, hserved, hwf, htaken,
    hreceived, -, hencode⟩⟩ := h
  · -- nothing is there to read
    have hnil : chunk = [] := by
      rw [hreceived] at hchunk
      have hlength := hchunk.length_le
      rw [List.length_append] at hlength
      exact List.length_eq_zero_iff.mp (by omega)
    subst hnil
    refine .inl ⟨rfl, hsent, .inl ⟨htaken, rfl, ?_⟩⟩
    exact (List.append_nil _).trans hreceived
  · have hanswered : w.answered =
        (earlier.flatMap fun s => s.answer.encode) ++ answer.encode := by
      rw [Wire.answered, hserved]
      simp
    rw [hreceived, hanswered, List.append_assoc, List.prefix_append_right_inj] at hchunk
    obtain ⟨rest, hrest⟩ := hchunk
    have hread : (w.read chunk).received =
        (earlier.flatMap fun s => s.answer.encode) ++ (buffer ++ chunk) := by
      rw [Wire.read, hreceived, List.append_assoc]
    by_cases hwhole : rest = []
    · subst hwhole
      rw [List.append_nil] at hrest
      have hextract := hwf.extract []
      rw [List.append_nil, ← hrest] at hextract
      refine .inr ⟨answer, hextract, ⟨htaken, ?_⟩, hsent, ?_, fun s hs heq => ?_⟩
      · rw [hread, hrest]
        exact hanswered.symm
      · rw [hserved]
        exact List.mem_append_right _ List.mem_cons_self
      · -- the earlier frames start before this one
        rw [hserved, List.mem_append, List.mem_singleton] at hs
        obtain hs | rfl := hs
        · have hstarts := hordered.1
          rw [hserved, List.map_append, List.pairwise_append] at hstarts
          have hlt := hstarts.2.2 s.start (List.mem_map_of_mem hs) before.length (by simp)
          omega
        · rfl
    · have hscan := hwf.scan []
      rw [List.append_nil, ← hrest] at hscan
      refine .inl ⟨?_, hsent, .inr ⟨earlier, answer, rest, hserved, hwf, htaken, hread, hwhole,
        hrest.symm⟩⟩
      rw [tryExtractPacket_scan, packetFrames.scan_front hscan hwhole]

theorem Sound.recv (h : u.Sound) {i : ℕ} {poll : PollOutcome} {outcome : RecvOutcome}
    (hstep : u.recv i poll outcome = some u') : u'.Sound := by
  unfold Upstream.recv at hstep
  split at hstep
  · rename_i c buffer j hrunning hsocket
    split at hstep
    · cases hstep
      exact h.fail hrunning _
    · cases outcome with
      | interrupted =>
        cases hstep
        exact h
      | failed text =>
        cases hstep
        exact h.fail hrunning _
      | closed =>
        cases hstep
        exact h.fail hrunning _
      | bytes chunk =>
        simp only at hstep
        split_ifs at hstep with hchunk
        obtain ⟨-, before, -, hin⟩ := h.stage hrunning hsocket
        obtain ⟨hextract, -⟩ | ⟨response, hextract, hquiet, hanswered⟩ :=
          inStage_received (h.ordered j) hin hchunk
        · rw [hextract] at hstep
          cases hstep
          refine h.progress hrunning hsocket (fun c' _ => .refl c' _) (h.ordered j)
            fun before' hin' => ?_
          obtain ⟨-, hnext⟩ | ⟨_, hextract', -⟩ := inStage_received (h.ordered j) hin' hchunk
          · exact hnext
          · rw [hextract] at hextract'
            cases hextract'
        · rw [hextract] at hstep
          cases hstep
          exact h.respond hrunning hsocket (fun c' => .refl c' _) (h.ordered j) hquiet
            ⟨before, [], by rw [List.append_nil]; exact hanswered.1, hanswered.2⟩
  · cases hstep

/-! ## The service -/

theorem not_complete_nil : ¬CompleteFrame [] := by decide

/-- The service answers a frame of a connection that a client keeps: it is the frame of
the call that waits there. -/
theorem inStage_serve {w : Wire} {request answer : Packet} {before : List (ℕ × UInt8)}
    {stage : Stage} (hsized : request.Sized) (hwf : answer.WellFormed)
    (hcomplete : CompleteFrame w.pending) (h : InStage w request c before stage) :
    InStage (w.serve answer) request c before stage := by
  cases stage with
  | connecting => exact h.elim
  | writing encoded n =>
    -- a front of the frame is not complete
    obtain ⟨rfl, hn, hsent, htaken, -⟩ := h
    have hpending : w.pending = request.encode.take n := by
      rw [Wire.pending, hsent, htaken, List.map_append, List.drop_left' (by simp), List.map_map]
      exact List.map_id _
    have hscan := hsized.scan []
    rw [List.append_nil, ← List.take_append_drop n request.encode] at hscan
    have hwait := lengthFrames.scan_front hscan (by
      intro hnil
      rw [List.drop_eq_nil_iff] at hnil
      omega)
    rw [← hpending, scan_complete hcomplete] at hwait
    cases hwait
  | reading buffer =>
    obtain ⟨hsent, ⟨htaken, rfl, hreceived⟩ | ⟨_, _, _, _, _, htaken, -⟩⟩ := h
    · have hpending : w.pending = request.encode := by
        rw [Wire.pending, hsent, htaken, List.map_append, List.drop_left' (by simp),
          List.map_map]
        exact List.map_id _
      have hframe := hsized.framePacket []
      have hsize := hsized.frameSize []
      rw [List.append_nil, ← hpending] at hframe hsize
      refine ⟨hsent, .inr ⟨w.served, answer, answer.encode, ?_, hwf, ?_, ?_, ?_, rfl⟩⟩
      · rw [Wire.serve, hframe, htaken]
      · rw [Wire.serve, hsize, hpending, htaken, hsent]
        simp
      · rw [List.append_nil]
        exact hreceived
      · intro hnil
        have hlength := answer.encode_length
        rw [hnil, kPacketHeaderSize] at hlength
        simp at hlength
        omega
    · rw [Wire.pending, htaken, List.drop_of_length_le (by simp)] at hcomplete
      exact absurd hcomplete not_complete_nil

theorem Sound.serve (h : u.Sound) {j : ℕ} {answer : Packet} (hwf : answer.WellFormed)
    (hstep : u.serve j answer = some u') : u'.Sound := by
  unfold Upstream.serve at hstep
  split_ifs at hstep with hcomplete
  cases hstep
  -- only the connection that was served changes
  have hwire : Function.update u.wires j ((u.wires j).serve answer) j = (u.wires j).serve answer :=
    Function.update_self j _ u.wires
  have hwires (j' : ℕ) (hj' : j' ≠ j) :
      Function.update u.wires j ((u.wires j).serve answer) j' = u.wires j' :=
    Function.update_of_ne hj' _ _
  have hext (c : ℕ) := extends_update (Wire.extends_serve c (u.wires j) answer)
  have hj : j < u.connected := by
    by_contra hge
    rw [h.fresh j (Nat.not_lt.mp hge)] at hcomplete
    exact not_complete_nil hcomplete
  refine ⟨fun j' hj' => (hwires j' (hj.trans_le hj').ne').trans (h.fresh j' hj'), h.single,
    h.ordered_update ((h.ordered j).serve answer), fun i => ?_,
    fun c => (h.call c).frame rfl rfl (fun hw => hw) (hext c) h.ordered⟩
  by_cases hsocket : (u.clients i).socketFd = some j
  · have hclient := h.client i
    unfold ClientSound at hclient ⊢
    change match (u.clients i).socketFd, (u.clients i).running with
      | none, none => True
      | some j', none => _
      | none, some (c, stage) => _
      | some j', some (c, stage) => _
    cases hrunning : (u.clients i).running with
    | none =>
      -- no request is on the connection of an idle client
      rw [hsocket, hrunning] at hclient
      rw [Wire.pending, hclient.2.1, List.drop_of_length_le (by simp)] at hcomplete
      exact absurd hcomplete not_complete_nil
    | some job =>
      obtain ⟨c, stage⟩ := job
      obtain ⟨-, before, hapart, hin⟩ := h.stage hrunning hsocket
      have hserving := h.running hrunning
      rw [hsocket]
      refine ⟨hj, hserving, before, hapart.extends fun j' _ => hext c j', ?_⟩
      change InStage (Function.update u.wires j ((u.wires j).serve answer) j) _ c before stage
      rw [hwire]
      exact inStage_serve ((h.call c).sized hserving.1) hwf hcomplete hin
  · refine (h.client i).frame rfl le_rfl (fun j' hj' => hwires j' ?_)
      fun c stage _ hserving => ⟨rfl, hserving.1, hext c⟩
    rintro rfl
    exact hsocket hj'

theorem Sound.step (h : u.Sound) {l : UpstreamStep} (hframed : Framed l)
    (hstep : u.step l = some u') : u'.Sound := by
  cases l with
  | call request =>
    cases hstep
    exact h.call_step hframed
  | lock c => exact h.lock hstep
  | connect i outcome => exact h.connect hstep
  | send i poll outcome => exact h.send hstep
  | recv i poll outcome => exact h.recv hstep
  | serve j answer => exact h.serve hframed hstep

/-- Whatever connects, writes and reads do and whenever the service answers, a call that
returns a response returns the answer to the very frame it wrote, and a call writes its
request at most once. -/
theorem responses_not_mixed_up {host : String} {port poolSize : ℤ}
    (h : Reached host port poolSize u) (c : ℕ) :
    (∀ response, (u.calls c).result = some (.ok response) → u.Answered c response) ∧
      u.WrittenOnce c := by
  have hsound : u.Sound := Reach.invariant (I := Sound) (sound_create host port poolSize)
    (fun _ _ _ _ hsound hframed hstep => hsound.step hframed hstep) h
  exact ⟨(hsound.call c).answered, (hsound.call c).once⟩

/-- The service answers a call after it has timed out; the next call gets its own answer. -/
theorem responses_not_mixed_up_demo :
    let response (n : UInt64) : Packet := { header := { msgId := 4, requestId := n } }
    ∃ u, Reached "localhost" 7300 1 u ∧ (u.calls 0).result = some (.error "timeout") ∧
      (u.calls 1).result = some (.ok (response 2)) ∧ u.Answered 1 (response 2) ∧
      u.WrittenOnce 0 := by
  intro response
  let request (n : UInt64) : Packet := { header := { msgId := 3, requestId := n } }
  have hreplay : (replay step (fun _ l => decide (Framed l)) (create "localhost" 7300 1)
      [.call (request 1), .lock 0, .connect 0 .connected, .send 0 .ready (.sent 24),
        .recv 0 .timeout .closed, .call (request 2), .lock 1, .serve 0 (response 1),
        .connect 0 .connected, .send 0 .ready (.sent 10), .send 0 .ready (.sent 14),
        .serve 1 (response 2), .recv 0 .ready (.bytes ((response 2).encode.take 5)),
        .recv 0 .ready (.bytes ((response 2).encode.drop 5))]).any
      (fun u => (u.calls 0).result = some (.error "timeout") ∧
        (u.calls 1).result = some (.ok (response 2))) = true := by
    decide +kernel
  have hframed : ∀ (u : Upstream) l, decide (Framed l) = true → Framed l :=
    fun _ _ h => of_decide_eq_true h
  obtain ⟨u, hreached, hresults⟩ := Reach.of_replay_any hframed hreplay
  obtain ⟨htimeout, hok⟩ := of_decide_eq_true hresults
  exact ⟨u, hreached, htimeout, hok, (responses_not_mixed_up hreached 1).1 _ hok,
    (responses_not_mixed_up hreached 0).2⟩

end Upstream

end GameBackend
