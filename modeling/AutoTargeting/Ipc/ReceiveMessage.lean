import AutoTargeting.Ipc.Framing

namespace AutoTargeting.Ipc

/-- Where `receive_message` is between two calls of `read`: before the length, or in the message
with what it has of it. -/
inductive Receiving
  | header
  | body (length : ℕ) (got : List UInt8)
  deriving DecidableEq, Repr

/-- What `receive_message` does with the bytes of a `read`. -/
inductive Received
  | more (r : Receiving)
  | closed
  | message (text : List UInt8)
  deriving DecidableEq, Repr

/-- The largest length that does not count as corrupted. -/
def maxMessage : ℕ := 64 * 1024 * 1024

namespace Receiving

/-- How many bytes the next `read` asks for. -/
def count : Receiving → ℕ
  | .header => 4
  | .body length got => length - got.length

/-- A `read` returned `chunk`, which is empty at the end of the stream. -/
def read (chunk : List UInt8) : Receiving → Received
  | .header =>
    -- the length has to come in one piece
    if chunk.length ≠ 4 then .closed
    else if fromBeBytes chunk = 0 ∨ maxMessage < fromBeBytes chunk then .closed
    else .more (.body (fromBeBytes chunk) [])
  | .body length got =>
    if chunk = [] then .closed
    else if (got ++ chunk).length < length then .more (.body length (got ++ chunk))
    else .message (got ++ chunk)

end Receiving

/-- How a stream is cut: what a `read` at this position returns of the bytes it asks for. -/
structure Cut where
  size : ℕ → ℕ → ℕ
  pos : ∀ position count, 0 < count → 0 < size position count
  le : ∀ position count, size position count ≤ count

/-- The stream of one client, from its first byte that was not read yet. -/
structure Input where
  position : ℕ
  rest : List UInt8
  deriving DecidableEq, Repr

namespace Input

def chunk (cut : Cut) (i : Input) (count : ℕ) : List UInt8 :=
  i.rest.take (cut.size i.position count)

def after (i : Input) (chunk : List UInt8) : Input :=
  ⟨i.position + chunk.length, i.rest.drop chunk.length⟩

/-- `receive_message` from its place `r` on: the message it returns, and the stream then, if it
did not close the connection. Without an answer the reads ran out. -/
def receive (cut : Cut) : ℕ → Receiving → Input → Option (List UInt8 × Option Input)
  | 0, _, _ => none
  | reads + 1, r, i =>
    match r.read (i.chunk cut r.count) with
    | .more r' => receive cut reads r' (i.after (i.chunk cut r.count))
    | .closed => some ([], none)
    | .message text => some (text, some (i.after (i.chunk cut r.count)))

/-- `receive_message`. One `read` for the length and one for each byte are always enough. -/
def receiveMessage (cut : Cut) (i : Input) : Option (List UInt8 × Option Input) :=
  i.receive cut (1 + maxMessage) .header

/-- So many calls of `receive_message`, up to the one that closes the connection. -/
def receiveMessages (cut : Cut) : ℕ → Input → List (List UInt8) × Option Input
  | 0, i => ([], some i)
  | calls + 1, i =>
    match i.receiveMessage cut with
    | some (text, some i') => (text :: (receiveMessages cut calls i').1,
        (receiveMessages cut calls i').2)
    | some (text, none) => ([text], none)
    | none => ([], none)

variable {cut : Cut}

theorem length_chunk {i : Input} {count : ℕ} (h : count ≤ i.rest.length) :
    (i.chunk cut count).length = cut.size i.position count := by
  have := cut.le i.position count
  rw [chunk, List.length_take]
  omega

/-- The loop over the message gets it whole, however it is cut. -/
theorem receive_body {reads length : ℕ} {got text later : List UInt8} {position : ℕ}
    (hlength : got.length + text.length = length) (htext : text ≠ [])
    (hreads : text.length ≤ reads) :
    receive cut reads (.body length got) ⟨position, text ++ later⟩ =
      some (got ++ text, some ⟨position + text.length, later⟩) := by
  induction reads generalizing got text position with
  | zero =>
    have := List.length_pos_of_ne_nil htext
    omega
  | succ reads ih =>
    have hpos := List.length_pos_of_ne_nil htext
    have hcount : (Receiving.body length got).count = text.length := by
      simp only [Receiving.count]
      omega
    set n := cut.size position text.length with hn
    have hn0 : 0 < n := cut.pos position text.length hpos
    have hnle : n ≤ text.length := cut.le position text.length
    have hchunk : chunk cut ⟨position, text ++ later⟩ text.length = text.take n := by
      simp only [chunk, ← hn]
      exact List.take_append_of_le_length hnle
    have hlen : (text.take n).length = n := by
      rw [List.length_take]
      omega
    have hafter : after ⟨position, text ++ later⟩ (text.take n) =
        ⟨position + n, text.drop n ++ later⟩ := by
      simp only [after, hlen]
      rw [List.drop_append_of_le_length hnle]
    have hne : text.take n ≠ [] := List.ne_nil_of_length_pos (by omega)
    simp only [receive, hcount, hchunk, Receiving.read, if_neg hne, hafter]
    by_cases hlast : n = text.length
    · -- this was the last chunk
      have hall : text.take n = text := List.take_of_length_le (by omega)
      have hdone : ¬ (got ++ text).length < length := by
        rw [List.length_append]
        omega
      rw [hall, if_neg hdone, hlast]
      simp
    · have hmore : (got ++ text.take n).length < length := by
        rw [List.length_append]
        omega
      have hrest : (text.drop n).length = text.length - n := List.length_drop
      rw [if_pos hmore]
      simp only
      rw [ih (by rw [List.length_append]; omega) (List.ne_nil_of_length_pos (by omega)) (by omega),
        List.append_assoc, List.take_append_drop, hrest]
      congr 4
      omega

/-- A message is received exactly if its length comes in one piece. -/
theorem receiveMessage_eq {text : List UInt8} (hpos : 1 ≤ text.length)
    (hmax : text.length ≤ maxMessage) (position : ℕ) (later : List UInt8) :
    receiveMessage cut ⟨position, message text ++ later⟩ =
      if cut.size position 4 = 4 then
        some (text, some ⟨position + (message text).length, later⟩)
      else some ([], none) := by
  have hword : text.length < 2 ^ 32 := by
    unfold maxMessage at hmax
    omega
  have hlen : (message text).length = 4 + text.length := by
    rw [message, List.length_append, toBeBytes_length]
  have hchunk : (chunk cut ⟨position, message text ++ later⟩ 4).length = cut.size position 4 := by
    apply length_chunk
    rw [List.length_append]
    omega
  have hreads : 1 + maxMessage = maxMessage + 1 := Nat.add_comm ..
  by_cases hone : cut.size position 4 = 4
  case neg =>
    rw [receiveMessage, hreads]
    simp [receive, Receiving.count, Receiving.read, hchunk, hone]
  case pos =>
    -- the first read got the whole length, the other reads get the text
    have hhead : chunk cut ⟨position, message text ++ later⟩ 4 = toBeBytes text.length := by
      simp only [chunk, hone, message, Nat.mod_eq_of_lt hword]
      rfl
    have hafter : after ⟨position, message text ++ later⟩ (toBeBytes text.length) =
        ⟨position + 4, text ++ later⟩ := by
      simp only [after, message, toBeBytes_length]
      rfl
    have hok : ¬ (text.length = 0 ∨ maxMessage < text.length) := by omega
    rw [receiveMessage, hreads, if_pos hone, hlen]
    simp only [receive, Receiving.count, Receiving.read, hhead, hafter, toBeBytes_length,
      fromBeBytes_toBeBytes hword, if_neg hok]
    have hbody : receive cut maxMessage (.body text.length []) ⟨position + 4, text ++ later⟩ =
        some ([] ++ text, some ⟨position + 4 + text.length, later⟩) :=
      receive_body (Nat.zero_add text.length) (List.ne_nil_of_length_pos hpos) hmax
    simpa [Nat.add_assoc] using hbody

/-- The position of the length of message `k`. -/
def start (messages : List (List UInt8)) (k : ℕ) : ℕ := ((messages.take k).flatMap message).length

theorem receiveMessages_iff (cut : Cut) {messages : List (List UInt8)}
    (hlen : ∀ m ∈ messages, 1 ≤ m.length ∧ m.length ≤ maxMessage) (position : ℕ)
    (later : List UInt8) :
    receiveMessages cut messages.length ⟨position, messages.flatMap message ++ later⟩ =
        (messages, some ⟨position + (messages.flatMap message).length, later⟩) ↔
      ∀ k < messages.length, cut.size (position + start messages k) 4 = 4 := by
  induction messages generalizing position with
  | nil => simp [receiveMessages]
  | cons m messages ih =>
    obtain ⟨hpos, hmax⟩ := hlen m List.mem_cons_self
    have ih := ih (fun m hm => hlen m (List.mem_cons_of_mem _ hm)) (position + (message m).length)
    have hstart : ∀ k, position + start (m :: messages) (k + 1) =
        position + (message m).length + start messages k := by
      intro k
      simp [start, Nat.add_assoc]
    rw [List.length_cons, Nat.forall_lt_succ_left]
    simp only [hstart, ← ih]
    simp only [List.flatMap_cons, List.append_assoc, List.length_append, receiveMessages,
      receiveMessage_eq hpos hmax]
    by_cases hone : cut.size position 4 = 4
    · simp [hone, start, Prod.ext_iff, Nat.add_assoc]
    · simp [hone, start]

/-- The server receives exactly the messages that were sent, and keeps the connection, if and
only if each length comes in one piece. -/
theorem messages_received_iff (cut : Cut) {messages : List (List UInt8)}
    (hlen : ∀ m ∈ messages, 1 ≤ m.length ∧ m.length ≤ maxMessage) :
    receiveMessages cut messages.length ⟨0, messages.flatMap message⟩ =
        (messages, some ⟨(messages.flatMap message).length, []⟩) ↔
      ∀ k < messages.length, cut.size (start messages k) 4 = 4 := by
  simpa using receiveMessages_iff cut hlen 0 []

/-- Every `read` returns all that it asked for. -/
def whole : Cut := ⟨fun _ count => count, fun _ _ h => h, fun _ count => Nat.le_refl count⟩

theorem messages_received_iff_whole :
    receiveMessages whole 2 ⟨0, message [7] ++ (message [8, 9] ++ [])⟩ =
      ([[7], [8, 9]], some ⟨11, []⟩) := by
  have hlen : ∀ m ∈ ([[7], [8, 9]] : List (List UInt8)), 1 ≤ m.length ∧ m.length ≤ maxMessage := by decide
  exact (messages_received_iff whole hlen).mpr fun _ _ => rfl

/-- Every `read` returns one byte. -/
def bytewise : Cut := ⟨fun _ count => min 1 count, fun _ _ _ => by omega, fun _ _ => by omega⟩

theorem length_in_pieces :
    ¬ ∀ (cut : Cut) (messages : List (List UInt8)),
      (∀ m ∈ messages, 1 ≤ m.length ∧ m.length ≤ maxMessage) →
      receiveMessages cut messages.length ⟨0, messages.flatMap message⟩ =
        (messages, some ⟨(messages.flatMap message).length, []⟩) := by
  intro hall
  have hone := hall bytewise [[7]] (by decide)
  have hiff := (receiveMessages_iff bytewise (by decide) 0 []).mp hone 0 (by decide)
  exact absurd hiff (by decide)

end Input

end AutoTargeting.Ipc
