import Mathlib.Data.List.Basic

/-!
# Taking frames off a buffer

A receiver appends what arrives to a buffer and takes frames off its front. An
`Extractor` says what it makes of a buffer: it waits for more, it takes one frame,
or it rejects the buffer and drops all of it. `drain` repeats this until nothing is
taken, `receive` runs one `drain` after each arrival.

A stream with no rejection gives the same frames however it arrives
(`receive_clean`). A stream with a rejection does so exactly when no frame follows
the bytes that bring the rejection about (`receive_eq_iff`): a buffer is dropped
whole, and how much of the stream it holds by then is up to the arrivals.
-/

namespace GameBackend

/-- What a receiver makes of its buffer. -/
inductive Verdict (α β : Type) where
  | wait
  | frame (packet : β) (rest : List α)
  | reject

/-- A reading of buffers that later bytes do not change once it is more than `wait`. -/
structure Extractor (α β : Type) where
  scan : List α → Verdict α β
  scan_nil : scan [] = .wait
  /-- A frame is a nonempty front of the buffer, whatever follows it. -/
  scan_frame : ∀ {buffer p rest}, scan buffer = .frame p rest →
    ∃ front, front ≠ [] ∧ buffer = front ++ rest ∧ ∀ more, scan (front ++ more) = .frame p more
  scan_reject : ∀ {buffer}, scan buffer = .reject → ∀ more, scan (buffer ++ more) = .reject

namespace Extractor

variable {α β : Type} (E : Extractor α β)

theorem frame_append {buffer rest : List α} {p : β} (h : E.scan buffer = .frame p rest)
    (more : List α) : E.scan (buffer ++ more) = .frame p (rest ++ more) := by
  obtain ⟨front, -, rfl, hfront⟩ := E.scan_frame h
  rw [List.append_assoc]
  exact hfront (rest ++ more)

theorem frame_shorter {buffer rest : List α} {p : β} (h : E.scan buffer = .frame p rest) :
    rest.length < buffer.length := by
  obtain ⟨front, hne, rfl, -⟩ := E.scan_frame h
  have := List.length_pos_iff.mpr hne
  simp only [List.length_append]
  omega

/-- A front of a single frame waits for the rest of it. -/
theorem scan_front {front missing : List α} {p : β} (h : E.scan (front ++ missing) = .frame p [])
    (hmissing : missing ≠ []) : E.scan front = .wait := by
  cases hscan : E.scan front with
  | wait => rfl
  | reject =>
    rw [E.scan_reject hscan missing] at h
    cases h
  | frame p rest =>
    rw [E.frame_append hscan missing] at h
    injection h with _ hrest
    exact absurd (List.append_eq_nil_iff.mp hrest).2 hmissing

/-! ### Draining a buffer -/

/-- The frames taken off a buffer, and what is left of it. -/
def drain (buffer : List α) : List β × List α :=
  match h : E.scan buffer with
  | .wait => ([], buffer)
  | .reject => ([], [])
  | .frame p rest =>
    have := E.frame_shorter h
    (p :: (drain rest).1, (drain rest).2)
termination_by buffer.length

theorem drain_wait {buffer : List α} (h : E.scan buffer = .wait) :
    E.drain buffer = ([], buffer) := by
  rw [drain]
  split <;> simp_all

theorem drain_reject {buffer : List α} (h : E.scan buffer = .reject) :
    E.drain buffer = ([], []) := by
  rw [drain]
  split <;> simp_all

theorem drain_frame {buffer rest : List α} {p : β} (h : E.scan buffer = .frame p rest) :
    E.drain buffer = (p :: (E.drain rest).1, (E.drain rest).2) := by
  rw [drain]
  split <;> simp_all

@[simp] theorem drain_nil : E.drain [] = ([], []) := E.drain_wait E.scan_nil

/-- Induction along the frames of a buffer. -/
theorem frames_induction {motive : List α → Prop}
    (wait : ∀ buffer, E.scan buffer = .wait → motive buffer)
    (reject : ∀ buffer, E.scan buffer = .reject → motive buffer)
    (frame : ∀ buffer p rest, E.scan buffer = .frame p rest → motive rest → motive buffer)
    (buffer : List α) : motive buffer := by
  induction hn : buffer.length using Nat.strongRecOn generalizing buffer with
  | _ n ih =>
    cases h : E.scan buffer with
    | wait => exact wait buffer h
    | reject => exact reject buffer h
    | frame p rest =>
      exact frame buffer p rest h (ih rest.length (hn ▸ E.frame_shorter h) rest rfl)

/-- What is left after a drain is waiting for more. -/
theorem scan_drain (buffer : List α) : E.scan (E.drain buffer).2 = .wait := by
  induction buffer using E.frames_induction with
  | wait buffer h => rw [E.drain_wait h]; exact h
  | reject buffer h => rw [E.drain_reject h]; exact E.scan_nil
  | frame buffer p rest h ih => rw [E.drain_frame h]; exact ih

/-- One drain after each arrival, starting with `buffer`. -/
def receive (buffer : List α) : List (List α) → List β × List α
  | [] => ([], buffer)
  | arrival :: later =>
    let (frames, rest) := E.drain (buffer ++ arrival)
    ((frames ++ (receive rest later).1), (receive rest later).2)

@[simp] theorem receive_nil (buffer : List α) : E.receive buffer [] = ([], buffer) := rfl

theorem receive_cons (buffer arrival : List α) (later : List (List α)) :
    E.receive buffer (arrival :: later) =
      ((E.drain (buffer ++ arrival)).1 ++ (E.receive (E.drain (buffer ++ arrival)).2 later).1,
        (E.receive (E.drain (buffer ++ arrival)).2 later).2) := rfl

/-! ### Streams without a rejection -/

/-- Read frame by frame, the stream never brings a rejection about. -/
inductive Clean : List α → Prop
  | wait {stream : List α} (h : E.scan stream = .wait) : Clean stream
  | frame {stream rest : List α} {p : β} (h : E.scan stream = .frame p rest)
      (hrest : Clean rest) : Clean stream

variable {E}

theorem Clean.tail {stream rest : List α} {p : β} (hc : E.Clean stream)
    (h : E.scan stream = .frame p rest) : E.Clean rest := by
  cases hc with
  | wait hw => rw [hw] at h; cases h
  | frame hf hrest =>
    rw [hf] at h
    cases h
    exact hrest

theorem Clean.not_reject {stream : List α} (hc : E.Clean stream) : E.scan stream ≠ .reject := by
  intro h
  cases hc with
  | wait hw => rw [hw] at h; cases h
  | frame hf _ => rw [hf] at h; cases h

/-- Draining early does not change what a clean stream gives. -/
theorem Clean.drain_append {buffer more : List α} (hc : E.Clean (buffer ++ more)) :
    E.drain (buffer ++ more) =
      ((E.drain buffer).1 ++ (E.drain ((E.drain buffer).2 ++ more)).1,
        (E.drain ((E.drain buffer).2 ++ more)).2) ∧
      E.Clean ((E.drain buffer).2 ++ more) := by
  induction buffer using E.frames_induction with
  | wait buffer h =>
    rw [E.drain_wait h]
    exact ⟨rfl, hc⟩
  | reject buffer h => exact absurd (E.scan_reject h more) hc.not_reject
  | frame buffer p rest h ih =>
    have happ := E.frame_append h more
    obtain ⟨heq, hclean⟩ := ih (hc.tail happ)
    rw [E.drain_frame h, E.drain_frame happ, heq]
    exact ⟨rfl, hclean⟩

/-- A clean stream gives the same frames and leaves the same bytes however it arrives. -/
theorem Clean.receive_eq {buffer : List α} {arrivals : List (List α)}
    (hw : E.scan buffer = .wait) (hc : E.Clean (buffer ++ arrivals.flatten)) :
    E.receive buffer arrivals = E.drain (buffer ++ arrivals.flatten) := by
  induction arrivals generalizing buffer with
  | nil => simp [E.drain_wait hw]
  | cons arrival later ih =>
    rw [List.flatten_cons, ← List.append_assoc] at hc ⊢
    obtain ⟨heq, hclean⟩ := hc.drain_append
    rw [receive_cons, heq, ih (E.scan_drain _) hclean]

theorem Clean.of_append {buffer more : List α} (hc : E.Clean (buffer ++ more)) :
    E.Clean buffer := by
  induction buffer using E.frames_induction with
  | wait buffer h => exact .wait h
  | reject buffer h => exact absurd (E.scan_reject h more) hc.not_reject
  | frame buffer p rest h ih => exact .frame h (ih (hc.tail (E.frame_append h more)))

/-! ### Streams whose frames do not depend on the arrivals -/

variable (E) in
/-- Read frame by frame, the stream brings no rejection about, or no frame follows the
bytes that bring it about. -/
inductive Settled : List α → Prop
  | wait {stream : List α} (h : E.scan stream = .wait) : Settled stream
  | frame {stream rest : List α} {p : β} (h : E.scan stream = .frame p rest)
      (hrest : Settled rest) : Settled stream
  | reject {stream : List α} (h : E.scan stream = .reject)
      (hlater : ∀ front rest, stream = front ++ rest → E.scan front = .reject →
        ∀ p rest', E.scan rest ≠ .frame p rest') : Settled stream

theorem Settled.tail {stream rest : List α} {p : β} (hs : E.Settled stream)
    (h : E.scan stream = .frame p rest) : E.Settled rest := by
  cases hs with
  | wait hw => rw [hw] at h; cases h
  | frame hf hrest =>
    rw [hf] at h
    cases h
    exact hrest
  | reject hr _ => rw [hr] at h; cases h

/-- What follows a dropped buffer in a settled stream holds no frame at its front. -/
theorem Settled.after_reject {front rest : List α} (hs : E.Settled (front ++ rest))
    (h : E.scan front = .reject) :
    E.Settled rest ∧ (E.drain rest).1 = [] := by
  have hreject := E.scan_reject h rest
  cases hs with
  | wait hw => rw [hw] at hreject; cases hreject
  | frame hf _ => rw [hf] at hreject; cases hreject
  | reject _ hlater =>
    cases hrest : E.scan rest with
    | wait => exact ⟨.wait hrest, by rw [E.drain_wait hrest]⟩
    | frame p rest' => exact absurd hrest (hlater front rest rfl h p rest')
    | reject =>
      refine ⟨.reject hrest fun first second heq hfirst => ?_, by rw [E.drain_reject hrest]⟩
      refine hlater (front ++ first) second (by rw [heq, List.append_assoc]) ?_
      exact E.scan_reject h first

/-- Draining early does not change the frames of a settled stream. -/
theorem Settled.drain_append {buffer more : List α} (hs : E.Settled (buffer ++ more)) :
    (E.drain (buffer ++ more)).1 =
      (E.drain buffer).1 ++ (E.drain ((E.drain buffer).2 ++ more)).1 ∧
      E.Settled ((E.drain buffer).2 ++ more) := by
  induction buffer using E.frames_induction with
  | wait buffer h =>
    rw [E.drain_wait h]
    exact ⟨rfl, hs⟩
  | reject buffer h =>
    obtain ⟨hrest, hnone⟩ := hs.after_reject h
    rw [E.drain_reject h, E.drain_reject (E.scan_reject h more)]
    exact ⟨hnone.symm, hrest⟩
  | frame buffer p rest h ih =>
    have happ := E.frame_append h more
    obtain ⟨heq, hsettled⟩ := ih (hs.tail happ)
    rw [E.drain_frame h, E.drain_frame happ, heq]
    exact ⟨rfl, hsettled⟩

/-- A settled stream gives the frames of one drain however it arrives. -/
theorem Settled.receive_eq {buffer : List α} {arrivals : List (List α)}
    (hw : E.scan buffer = .wait) (hs : E.Settled (buffer ++ arrivals.flatten)) :
    (E.receive buffer arrivals).1 = (E.drain (buffer ++ arrivals.flatten)).1 := by
  induction arrivals generalizing buffer with
  | nil => simp [E.drain_wait hw]
  | cons arrival later ih =>
    rw [List.flatten_cons, ← List.append_assoc] at hs ⊢
    obtain ⟨heq, hsettled⟩ := hs.drain_append
    rw [receive_cons, heq, ih (E.scan_drain _) hsettled]

/-- A stream is settled when cutting it in two never changes its frames. -/
theorem Settled.of_cuts {stream : List α}
    (h : ∀ front rest, stream = front ++ rest →
      (E.drain front).1 ++ (E.drain ((E.drain front).2 ++ rest)).1 = (E.drain stream).1) :
    E.Settled stream := by
  induction stream using E.frames_induction with
  | wait stream hw => exact .wait hw
  | reject stream hr =>
    refine .reject hr fun front rest heq hfront p rest' hrest => ?_
    have hcut := h front rest heq
    simp only [E.drain_reject hfront, E.drain_reject hr, List.nil_append] at hcut
    rw [E.drain_frame hrest] at hcut
    cases hcut
  | frame stream p rest hf ih =>
    refine .frame hf (ih fun front second heq => ?_)
    obtain ⟨first, -, rfl, hfirst⟩ := E.scan_frame hf
    have hcut := h (first ++ front) second (by rw [heq, List.append_assoc])
    rw [E.drain_frame hf, E.drain_frame (hfirst front)] at hcut
    simpa using hcut

/-- The frames of a stream are the same for all arrivals exactly when it is settled. -/
theorem receive_eq_iff {stream : List α} :
    (∀ arrivals arrivals' : List (List α), arrivals.flatten = stream →
      arrivals'.flatten = stream → (E.receive [] arrivals).1 = (E.receive [] arrivals').1) ↔
      E.Settled stream := by
  constructor
  · intro h
    refine .of_cuts fun front rest heq => ?_
    have htwo := h [front, rest] [stream] (by simp [heq]) (by simp)
    simpa [receive_cons] using htwo
  · intro hs arrivals arrivals' heq heq'
    rw [Settled.receive_eq E.scan_nil (by simpa [heq] using hs),
      Settled.receive_eq E.scan_nil (by simpa [heq'] using hs)]
    simp [heq, heq']

end Extractor

end GameBackend
