import Mathlib

/-! A connected socket with a clock: what arrives at it and when, and what is sent through it.
Waiting is all that takes time. -/

namespace Net

inductive Fault
  | timeout
  | os (name : String)
  | value (name : String)
  | overflow (name : String)
deriving DecidableEq

inductive Reception
  | octets (head : UInt8) (tail : List UInt8)
  | closed
  | failed (fault : Fault)

/-- Something that happens some time after what is before it. -/
structure Arrival where
  delay : Nat
  what : Reception

structure Socket where
  now : Nat
  arrivals : List Arrival
  /-- How the coming `sendall`s end; those behind the list succeed. -/
  sends : List (Option Fault) := []
  written : List (List UInt8) := []

abbrev Line := List (Nat × UInt8)

def Line.octets (line : Line) : List UInt8 := line.map Prod.snd

def heardFrom : Nat → List Arrival → Line
  | now, ⟨delay, .octets head tail⟩ :: rest =>
    (head :: tail).map ((now + delay, ·)) ++ heardFrom (now + delay) rest
  | _, _ => []

def Socket.heard (socket : Socket) : Line := heardFrom socket.now socket.arrivals

def Arrival.octets (arrival : Arrival) : List UInt8 :=
  match arrival.what with
  | .octets head tail => head :: tail
  | _ => []

def Socket.stream (socket : Socket) : List UInt8 := socket.arrivals.flatMap Arrival.octets

def leftover : List UInt8 → List Arrival
  | [] => []
  | head :: tail => [⟨0, .octets head tail⟩]

def Socket.recv (socket : Socket) (size timeout : Nat) : Except Fault (List UInt8) × Socket :=
  match socket.arrivals with
  | [] => (.error .timeout, { socket with now := socket.now + timeout })
  | arrival :: rest =>
    if timeout ≤ arrival.delay then
      (.error .timeout,
        { socket with
          now := socket.now + timeout
          arrivals := { arrival with delay := arrival.delay - timeout } :: rest })
    else
      let now := socket.now + arrival.delay
      match arrival.what with
      | .octets head tail =>
        (.ok ((head :: tail).take size),
          { socket with now, arrivals := leftover ((head :: tail).drop size) ++ rest })
      -- a closed connection stays closed
      | .closed => (.ok [], { socket with now, arrivals := ⟨0, .closed⟩ :: rest })
      | .failed fault => (.error fault, { socket with now, arrivals := rest })

def Socket.sendall (socket : Socket) (octets : List UInt8) : Except Fault Unit × Socket :=
  match socket.sends with
  | some fault :: sends => (.error fault, { socket with sends })
  | none :: sends => (.ok (), { socket with sends, written := socket.written ++ [octets] })
  | [] => (.ok (), { socket with written := socket.written ++ [octets] })

def lastTime (now : Nat) (line : Line) : Nat := line.foldl (fun _ b => b.1) now

@[simp] theorem lastTime_nil (now : Nat) : lastTime now [] = now := rfl

theorem lastTime_append (now : Nat) (front rest : Line) :
    lastTime now (front ++ rest) = lastTime (lastTime now front) rest := List.foldl_append

theorem lastTime_const {now time : Nat} {line : Line} (hne : line ≠ [])
    (h : ∀ b ∈ line, b.1 = time) : lastTime now line = time := by
  obtain ⟨front, b, rfl⟩ := List.eq_nil_or_concat line |>.resolve_left hne
  rw [List.concat_eq_append, lastTime_append]
  exact h b (by simp)

/-- Nothing but waiting and taking octets happened to the socket. -/
structure Took (s s' : Socket) (front : Line) : Prop where
  heard : s.heard = front ++ s'.heard
  stream : s.stream = front.octets ++ s'.stream
  now : s'.now = lastTime s.now front
  sends : s'.sends = s.sends
  written : s'.written = s.written

/-- Something ended the waiting, and octets that had come may be lost. -/
structure Lost (s s' : Socket) (part : List UInt8) : Prop where
  stream : s.stream = part ++ s'.stream
  sends : s'.sends = s.sends
  written : s'.written = s.written

structure Sent (s s' : Socket) (out : List (List UInt8)) : Prop where
  now : s'.now = s.now
  arrivals : s'.arrivals = s.arrivals
  sends : s'.sends <:+ s.sends
  written : s'.written = s.written ++ out

theorem Sent.heard {s s' : Socket} {out : List (List UInt8)} (h : Sent s s' out) :
    s'.heard = s.heard := by
  unfold Socket.heard
  rw [h.now, h.arrivals]

theorem Sent.stream {s s' : Socket} {out : List (List UInt8)} (h : Sent s s' out) :
    s'.stream = s.stream := by
  unfold Socket.stream
  rw [h.arrivals]

theorem sendall_cases (s : Socket) (octets : List UInt8) :
    (∃ s', s.sendall octets = (.ok (), s') ∧ Sent s s' [octets]) ∨
    ∃ fault s', s.sendall octets = (.error fault, s') ∧ some fault ∈ s.sends ∧ Sent s s' [] := by
  obtain ⟨now, arrivals, _ | ⟨_ | fault, sends⟩, written⟩ := s
  · exact .inl ⟨_, rfl, rfl, rfl, List.suffix_refl _, rfl⟩
  · exact .inl ⟨_, rfl, rfl, rfl, List.suffix_cons .., rfl⟩
  · exact .inr ⟨fault, _, rfl, List.mem_cons_self .., rfl, rfl, List.suffix_cons ..,
      (List.append_nil _).symm⟩

theorem Took.refl (s : Socket) : Took s s [] := ⟨rfl, rfl, rfl, rfl, rfl⟩

theorem Took.trans {s s' s'' : Socket} {front front' : Line} (h : Took s s' front)
    (h' : Took s' s'' front') : Took s s'' (front ++ front') where
  heard := by rw [h.heard, h'.heard, List.append_assoc]
  stream := by
    unfold Line.octets
    rw [h.stream, h'.stream, List.map_append, List.append_assoc]
    rfl
  now := by rw [h'.now, h.now, lastTime_append]
  sends := h'.sends.trans h.sends
  written := h'.written.trans h.written

theorem Took.lost {s s' s'' : Socket} {front : Line} {part : List UInt8} (h : Took s s' front)
    (h' : Lost s' s'' part) : Lost s s'' (front.octets ++ part) where
  stream := by rw [h.stream, h'.stream, List.append_assoc]
  sends := h'.sends.trans h.sends
  written := h'.written.trans h.written

def InTime (size deadline : Nat) (line : Line) : Prop :=
  size ≤ line.length ∧ ∀ b ∈ line.take size, b.1 < deadline

theorem now_le_heardFrom {now : Nat} {arrivals : List Arrival} {b : Nat × UInt8}
    (h : b ∈ heardFrom now arrivals) : now ≤ b.1 := by
  induction arrivals generalizing now with
  | nil => exact absurd h List.not_mem_nil
  | cons arrival rest ih =>
    obtain ⟨delay, _ | _ | _⟩ := arrival
    · rcases List.mem_append.mp h with h | h
      · obtain ⟨_, -, rfl⟩ := List.mem_map.mp h
        exact Nat.le_add_right ..
      · exact Nat.le_trans (Nat.le_add_right ..) (ih h)
    · exact absurd h List.not_mem_nil
    · exact absurd h List.not_mem_nil

theorem InTime.head {size deadline : Nat} {line : Line} (h : InTime size deadline line)
    (hsize : 0 < size) : ∃ b, line.head? = some b ∧ b.1 < deadline := by
  obtain ⟨size, rfl⟩ := Nat.exists_eq_add_of_lt hsize
  cases line with
  | nil => exact absurd h.1 (by simp)
  | cons b rest => exact ⟨b, rfl, h.2 b (List.mem_cons_self ..)⟩

theorem InTime.tail {size deadline : Nat} {front rest : Line}
    (h : InTime (front.length + size) deadline (front ++ rest)) : InTime size deadline rest := by
  obtain ⟨hlength, hearly⟩ := h
  rw [List.length_append] at hlength
  refine ⟨by omega, fun b hb => hearly b ?_⟩
  rw [List.take_length_add_append]
  exact List.mem_append_right _ hb

theorem octets_leftover (octets : List UInt8) : (leftover octets).flatMap Arrival.octets = octets := by
  cases octets with
  | nil => rfl
  | cons head tail => exact List.append_nil _

theorem heardFrom_leftover (now : Nat) (octets : List UInt8) (rest : List Arrival) :
    heardFrom now (leftover octets ++ rest) = octets.map ((now, ·)) ++ heardFrom now rest := by
  cases octets with
  | nil => rfl
  | cons head tail => rfl

theorem took_octets {s s' : Socket} {time : Nat} {front : List UInt8}
    (hne : front ≠ []) (hheard : s.heard = front.map ((time, ·)) ++ s'.heard)
    (hstream : s.stream = front ++ s'.stream) (hnow : s'.now = time) (hsends : s'.sends = s.sends)
    (hwritten : s'.written = s.written) : Took s s' (front.map ((time, ·))) where
  heard := hheard
  stream := by rw [hstream, Line.octets, List.map_map]; exact congrArg (· ++ _) (List.map_id _).symm
  now := by
    rw [hnow, lastTime_const (List.map_eq_nil_iff.not.mpr hne)]
    intro b hb
    obtain ⟨_, -, rfl⟩ := List.mem_map.mp hb
    rfl
  sends := hsends
  written := hwritten

/-- What is received is the octets that come next, as many as came together and were asked for;
otherwise nothing comes in time, and nothing is lost. -/
theorem recv_cases (s : Socket) {size timeout : Nat} (hsize : 0 < size) :
    (∃ front s', s.recv size timeout = (.ok front.octets, s') ∧ Took s s' front ∧ front ≠ [] ∧
      front.length ≤ size ∧ ∀ b ∈ front, b.1 < s.now + timeout) ∨
    (∀ b ∈ s.heard.head?, s.now + timeout ≤ b.1) ∧ ∃ s',
      (s.recv size timeout = (.ok [], s') ∨ ∃ fault, s.recv size timeout = (.error fault, s')) ∧
      Lost s s' [] := by
  obtain ⟨now, arrivals, sends, written⟩ := s
  rcases arrivals with _ | ⟨⟨delay, what⟩, rest⟩
  · exact .inr ⟨fun _ hb => (nomatch hb), _, .inr ⟨_, rfl⟩, ⟨rfl, rfl, rfl⟩⟩
  -- what comes too late is not received
  by_cases hlate : timeout ≤ delay
  · refine .inr ⟨?_, _, .inr ⟨.timeout, if_pos hlate⟩, ⟨rfl, rfl, rfl⟩⟩
    intro b hb
    cases what with
    | octets head tail => cases hb; exact Nat.add_le_add_left hlate _
    | closed => cases hb
    | failed fault => cases hb
  · cases what with
    | octets head tail =>
      have hne : (head :: tail).take size ≠ [] := by
        obtain ⟨size, rfl⟩ := Nat.exists_eq_add_of_lt hsize
        exact List.cons_ne_nil _ _
      have hsplit := List.take_append_drop size (head :: tail)
      have hrecv : Socket.recv ⟨now, ⟨delay, .octets head tail⟩ :: rest, sends, written⟩ size timeout =
          (.ok ((head :: tail).take size),
            ⟨now + delay, leftover ((head :: tail).drop size) ++ rest, sends, written⟩) := if_neg hlate
      refine .inl ⟨((head :: tail).take size).map ((now + delay, ·)),
        ⟨now + delay, leftover ((head :: tail).drop size) ++ rest, sends, written⟩, ?_,
        took_octets hne ?_ ?_ rfl rfl rfl, List.map_eq_nil_iff.not.mpr hne, ?_, ?_⟩
      · rw [hrecv, Line.octets, List.map_map]
        exact congrArg (fun octets => (Except.ok octets, _)) (List.map_id _).symm
      · show (head :: tail).map _ ++ _ = _ ++ heardFrom _ (leftover _ ++ rest)
        rw [heardFrom_leftover, ← List.append_assoc, ← List.map_append, hsplit]
      · show (head :: tail) ++ rest.flatMap Arrival.octets = _ ++ (leftover _ ++ rest).flatMap _
        rw [List.flatMap_append, octets_leftover, ← List.append_assoc, hsplit]
      · rw [List.length_map]
        exact List.length_take_le _ _
      · intro b hb
        obtain ⟨_, -, rfl⟩ := List.mem_map.mp hb
        show now + delay < now + timeout
        omega
    | closed => exact .inr ⟨fun _ hb => (nomatch hb), _, .inl (if_neg hlate), ⟨rfl, rfl, rfl⟩⟩
    | failed fault =>
      exact .inr ⟨fun _ hb => (nomatch hb), _, .inr ⟨fault, if_neg hlate⟩, ⟨rfl, rfl, rfl⟩⟩

end Net
