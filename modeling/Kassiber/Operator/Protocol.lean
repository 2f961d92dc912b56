import Kassiber.Lib.Outcome
import Kassiber.Lib.Chunks

/-!
Broker framing: length-prefixed frames with a distinct frame type for secrets.
-/

namespace Kassiber.Operator
open Lib.Outcome Lib.Chunks

abbrev Bytes := List UInt8

inductive ChannelError where
  | appError (code message : String)
  | valueError (message : String)
  | unicodeEncodeError
  | eofError (message : String)

def maxJsonFrame : Nat := 8 * 1024 * 1024
def maxSecretFrame : Nat := 16 * 1024
def secretChallengeEntropyBytes : Nat := 24
def secretChallengeWireBytes : Nat := secretChallengeEntropyBytes * 2
def maxSecretPayloadBytes : Nat := maxSecretFrame - secretChallengeWireBytes - 1

def headerSize : Nat := 5

def jsonKind : UInt8 := 74
def secretKind : UInt8 := 83

def packHeader (kind : UInt8) (size : Nat) : Bytes :=
  [kind, UInt8.ofNat (size / 2 ^ 24), UInt8.ofNat (size / 2 ^ 16), UInt8.ofNat (size / 2 ^ 8), UInt8.ofNat size]

def unpackHeader : Bytes → UInt8 × Nat
  | [kind, a, b, c, d] => (kind, a.toNat * 2 ^ 24 + b.toNat * 2 ^ 16 + c.toNat * 2 ^ 8 + d.toNat)
  | _ => (0, 0)

theorem packHeader_length (kind : UInt8) (size : Nat) : (packHeader kind size).length = headerSize := rfl

theorem unpack_packHeader (kind : UInt8) {size : Nat} (fits : size < 2 ^ 32) :
    unpackHeader (packHeader kind size) = (kind, size) := by
  simp only [packHeader, unpackHeader, UInt8.toNat_ofNat', Prod.mk.injEq, true_and]
  omega

/-- The JSON of the payloads. An object is read back from its own text; other texts are invalid or no object. -/
structure JsonCodec (Payload : Type) where
  dumps : Payload → Bytes
  loads : Bytes → Except ChannelError (Option Payload)
  inverse : ∀ payload, loads (dumps payload) = .ok (some payload)

inductive Secret where
  | text (value : String)
  | bytes (value : Bytes)

def Secret.encoded : Secret → Bytes
  | .text value => value.toUTF8.toList
  | .bytes value => value

def encodeAscii (text : String) : Except ChannelError Bytes :=
  if text.toList.all fun c => decide (c.toNat < 128) then .ok (text.toList.map fun c => UInt8.ofNat c.toNat)
  else .error .unicodeEncodeError

/-- The bytes before the first NUL and, when there is one, the bytes after it. -/
def partitionNul (raw : Bytes) : Bytes × Option Bytes :=
  match raw.dropWhile (· ≠ 0) with
  | [] => (raw, none)
  | _ :: rest => (raw.takeWhile (· ≠ 0), some rest)

theorem partitionNul_join {head tail : Bytes} (free : (0 : UInt8) ∉ head) :
    partitionNul (head ++ 0 :: tail) = (head, some tail) := by
  have all : ∀ b ∈ head, (decide (b ≠ 0)) = true := by
    intro b member
    exact decide_eq_true fun zero => free (zero ▸ member)
  have dropped : (head ++ 0 :: tail).dropWhile (· ≠ 0) = 0 :: tail := by
    rw [List.dropWhile_append_of_pos all]
    rfl
  have taken : (head ++ 0 :: tail).takeWhile (· ≠ 0) = head := by
    rw [List.takeWhile_append_of_pos all]
    simp
  unfold partitionNul
  rw [dropped, taken]

section
variable {Payload : Type} (json : JsonCodec Payload)

def sendJson (payload : Payload) : Except ChannelError Bytes := do
  let raw := json.dumps payload
  raiseIf (maxJsonFrame < raw.length) (.appError "operator_frame_too_large" "operator request is too large")
  pure (packHeader jsonKind raw.length ++ raw)

def sendSecret (challenge : String) (secret : Secret) : Except ChannelError Bytes := do
  let challengeBytes ← encodeAscii challenge
  raiseIf (challengeBytes = [] ∨ (0 : UInt8) ∈ challengeBytes) (.valueError "invalid challenge")
  raiseIf (maxSecretPayloadBytes < secret.encoded.length)
    (.appError "operator_secret_too_large" "operator secret is too large")
  let raw := challengeBytes ++ 0 :: secret.encoded
  raiseIf (maxSecretFrame < raw.length) (.appError "operator_secret_too_large" "operator secret is too large")
  pure (packHeader secretKind raw.length ++ raw)

abbrev Stream := List Bytes

def transportRecvExact (size : Nat) (stream : Stream) : Except ChannelError Bytes × Stream :=
  match recvExact size [] stream with
  | (some bytes, rest) => (.ok bytes, rest)
  | (none, rest) => (.error (.eofError "operator IPC connection closed"), rest)

def receiveFrame (limit : Nat) (stream : Stream) : Except ChannelError (UInt8 × Bytes) × Stream :=
  match transportRecvExact headerSize stream with
  | (.error e, rest) => (.error e, rest)
  | (.ok header, rest) =>
    let kind := (unpackHeader header).1
    let size := (unpackHeader header).2
    if limit < size then
      (.error (.appError "operator_frame_too_large" "operator protocol frame exceeds its limit"), rest)
    else match transportRecvExact size rest with
      | (.error e, rest) => (.error e, rest)
      | (.ok raw, rest) => (.ok (kind, raw), rest)

def readJson (frame : UInt8 × Bytes) : Except ChannelError Payload :=
  if frame.1 ≠ jsonKind then .error (.appError "operator_protocol_error" "expected operator protocol JSON frame")
  else match json.loads frame.2 with
    | .error _ => .error (.appError "operator_protocol_error" "invalid operator protocol JSON")
    | .ok none => .error (.appError "operator_protocol_error" "operator protocol payload must be an object")
    | .ok (some payload) => .ok payload

def receiveJson (stream : Stream) : Except ChannelError Payload × Stream :=
  match receiveFrame maxJsonFrame stream with
  | (.error e, rest) => (.error e, rest)
  | (.ok frame, rest) => (readJson json frame, rest)

def readSecret (expectedChallenge : String) (frame : UInt8 × Bytes) : Except ChannelError Bytes :=
  if frame.1 ≠ secretKind then
    .error (.appError "operator_protocol_error" "expected operator protocol secret frame")
  else match partitionNul frame.2 with
    | (_, none) =>
      .error (.appError "operator_secret_challenge_mismatch" "operator secret challenge did not match")
    | (challenge, some secret) => do
      let expected ← encodeAscii expectedChallenge
      raiseIf (challenge ≠ expected)
        (.appError "operator_secret_challenge_mismatch" "operator secret challenge did not match")
      raiseIf (maxSecretPayloadBytes < secret.length)
        (.appError "operator_secret_too_large" "operator secret is too large")
      pure secret

def receiveSecret (expectedChallenge : String) (stream : Stream) : Except ChannelError Bytes × Stream :=
  match receiveFrame maxSecretFrame stream with
  | (.error e, rest) => (.error e, rest)
  | (.ok frame, rest) => (readSecret expectedChallenge frame, rest)

inductive Message (Payload : Type) where
  | json (payload : Payload)
  | secret (challenge : String) (secret : Secret)

inductive Received (Payload : Type) where
  | json (payload : Payload)
  | secret (bytes : Bytes)

def Message.content : Message Payload → Received Payload
  | .json payload => .json payload
  | .secret _ value => .secret value.encoded

def send : Message Payload → Except ChannelError Bytes
  | .json payload => sendJson json payload
  | .secret challenge secret => sendSecret challenge secret

/-- The receiver knows the kinds of the messages and the challenges it issued. -/
def receive : Message Payload → Stream → Except ChannelError (Received Payload) × Stream
  | .json _, stream =>
    match receiveJson json stream with
    | (.error e, rest) => (.error e, rest)
    | (.ok payload, rest) => (.ok (.json payload), rest)
  | .secret challenge _, stream =>
    match receiveSecret challenge stream with
    | (.error e, rest) => (.error e, rest)
    | (.ok secret, rest) => (.ok (.secret secret), rest)

def sendAll (messages : List (Message Payload)) : Except ChannelError Bytes := do
  let frames ← messages.mapM (send json)
  pure frames.flatten

def receiveAll : List (Message Payload) → Stream → Except ChannelError (List (Received Payload)) × Stream
  | [], stream => (.ok [], stream)
  | message :: rest, stream =>
    match receive json message stream with
    | (.error e, stream) => (.error e, stream)
    | (.ok content, stream) =>
      match receiveAll rest stream with
      | (.error e, stream) => (.error e, stream)
      | (.ok contents, stream) => (.ok (content :: contents), stream)

variable {stream : Stream} {bytes rest : Bytes}

theorem transport_exact (proper : Proper stream) (holds : stream.flatten = bytes ++ rest) :
    ∃ later, transportRecvExact bytes.length stream = (.ok bytes, later) ∧ later.flatten = rest ∧ Proper later := by
  obtain ⟨later, run, left, still⟩ := @recvExact_exact _ stream bytes.length [] bytes rest proper holds (by simp)
  refine ⟨later, ?_, left, still⟩
  unfold transportRecvExact
  rw [run]
  rfl

theorem transport_takes (size : Nat) (stream : Stream) :
    ∃ taken, stream.flatten = taken ++ (transportRecvExact size stream).2.flatten ∧ taken.length ≤ size ∧
      ∀ bytes, (transportRecvExact size stream).1 = .ok bytes → bytes = taken ∧ bytes.length = size := by
  obtain ⟨taken, split, within, exactly⟩ := recvExact_takes size [] stream (Nat.zero_le size)
  refine ⟨taken, ?_, by simpa using within, ?_⟩
  · unfold transportRecvExact
    rw [split]
    split
    · rename_i run
      rw [run]
    · rename_i run
      rw [run]
  · intro bytes read
    unfold transportRecvExact at read
    split at read
    · rename_i items rest run
      obtain ⟨same, width⟩ := exactly items (by rw [run])
      cases read
      exact ⟨same, width⟩
    · cases read

theorem receiveFrame_sent {limit : Nat} {kind : UInt8} {raw : Bytes} (proper : Proper stream)
    (small : raw.length ≤ limit) (fits : raw.length < 2 ^ 32)
    (holds : stream.flatten = (packHeader kind raw.length ++ raw) ++ rest) :
    ∃ later, receiveFrame limit stream = (.ok (kind, raw), later) ∧ later.flatten = rest ∧ Proper later := by
  rw [List.append_assoc] at holds
  obtain ⟨middle, header, left, still⟩ := transport_exact proper holds
  obtain ⟨later, body, left', still'⟩ := transport_exact still left
  refine ⟨later, ?_, left', still'⟩
  rw [packHeader_length] at header
  unfold receiveFrame
  rw [header]
  simp only [unpack_packHeader kind fits, if_neg (not_lt.2 small), body]

theorem receiveFrame_takes (limit : Nat) (stream : Stream) :
    ∃ taken, stream.flatten = taken ++ (receiveFrame limit stream).2.flatten ∧ taken.length ≤ headerSize + limit ∧
      ∀ kind raw, (receiveFrame limit stream).1 = .ok (kind, raw) → taken.head? = some kind := by
  obtain ⟨header, split, width, exactly⟩ := transport_takes headerSize stream
  unfold receiveFrame
  cases first : transportRecvExact headerSize stream with
  | mk outcome rest =>
    rw [first] at split exactly
    cases outcome with
    | error e => exact ⟨header, split, by omega, fun _ _ read => by cases read⟩
    | ok bytes =>
      obtain ⟨same, size⟩ := exactly bytes rfl
      dsimp only
      split
      · exact ⟨header, split, by omega, fun _ _ read => by cases read⟩
      · rename_i within
        obtain ⟨body, split', width', -⟩ := transport_takes (unpackHeader bytes).2 rest
        cases second : transportRecvExact (unpackHeader bytes).2 rest with
        | mk outcome' rest' =>
          rw [second] at split'
          have joined : stream.flatten = (header ++ body) ++ rest'.flatten := by
            rw [split, split', List.append_assoc]
          have total : (header ++ body).length ≤ headerSize + limit := by
            rw [List.length_append]
            omega
          cases outcome' with
          | error e => exact ⟨header ++ body, joined, total, fun _ _ read => by cases read⟩
          | ok raw =>
            refine ⟨header ++ body, joined, total, fun kind raw' read => ?_⟩
            cases read
            rw [← same]
            match bytes, size with
            | [kind, a, b, c, d], _ => rfl

theorem receive_sent {message : Message Payload} {frame : Bytes}
    (sent : send json message = .ok frame) (proper : Proper stream) (holds : stream.flatten = frame ++ rest) :
    ∃ later, receive json message stream = (.ok message.content, later) ∧ later.flatten = rest ∧ Proper later := by
  cases message with
  | json payload =>
    obtain ⟨_, small, built⟩ := bind_ok.1 (show sendJson json payload = .ok frame from sent)
    rw [raiseIf_ok] at small
    rw [pure_ok] at built
    subst built
    have limit : (json.dumps payload).length ≤ maxJsonFrame := not_lt.1 small
    have fits : (json.dumps payload).length < 2 ^ 32 := lt_of_le_of_lt limit (by decide)
    obtain ⟨later, received, left, still⟩ := receiveFrame_sent proper limit fits holds
    refine ⟨later, ?_, left, still⟩
    have read : readJson json (jsonKind, json.dumps payload) = .ok payload := by
      simp [readJson, json.inverse]
    simp only [receive, receiveJson, received, read]
    rfl
  | secret challenge value =>
    obtain ⟨name, encoded, sent⟩ := bind_ok.1 (show sendSecret challenge value = .ok frame from sent)
    obtain ⟨_, named, sent⟩ := bind_ok.1 sent
    obtain ⟨_, small, sent⟩ := bind_ok.1 sent
    obtain ⟨_, framed, built⟩ := bind_ok.1 sent
    rw [raiseIf_ok] at named small framed
    rw [pure_ok] at built
    subst built
    have limit : (name ++ 0 :: value.encoded).length ≤ maxSecretFrame := not_lt.1 framed
    have fits : (name ++ 0 :: value.encoded).length < 2 ^ 32 := lt_of_le_of_lt limit (by decide)
    obtain ⟨later, received, left, still⟩ := receiveFrame_sent proper limit fits holds
    refine ⟨later, ?_, left, still⟩
    have read : readSecret challenge (secretKind, name ++ 0 :: value.encoded) = .ok value.encoded := by
      simp only [readSecret, ne_eq, not_true, if_false, partitionNul_join (fun nul => named (.inr nul)), encoded]
      exact bind_ok.2 ⟨name, rfl, bind_ok.2 ⟨(), raiseIf_ok.2 (by simp), bind_ok.2 ⟨(), raiseIf_ok.2 small, rfl⟩⟩⟩
    simp only [receive, receiveSecret, received, read]
    rfl

theorem receiveAll_sent {messages : List (Message Payload)}
    (sent : sendAll json messages = .ok bytes) (proper : Proper stream) (holds : stream.flatten = bytes ++ rest) :
    ∃ later, receiveAll json messages stream = (.ok (messages.map Message.content), later) ∧ later.flatten = rest ∧
      Proper later := by
  obtain ⟨frames, run, joined⟩ := bind_ok.1 sent
  rw [pure_ok] at joined
  subst joined
  have paired := mapM_ok.1 run
  clear run sent
  induction paired generalizing stream with
  | nil => exact ⟨stream, rfl, by simpa using holds, proper⟩
  | @cons message frame messages frames head _ ih =>
    rw [List.flatten_cons, List.append_assoc] at holds
    obtain ⟨middle, first, left, still⟩ := receive_sent json head proper holds
    obtain ⟨later, others, left', still'⟩ := ih still left
    refine ⟨later, ?_, left', still'⟩
    simp only [receiveAll, first, others]
    rfl

/-- What one receive takes from an arbitrary stream, and the frame type it accepts. -/
def TakesWithin {α : Type} (limit : Nat) (kind : UInt8) (receiver : Stream → Except ChannelError α × Stream) : Prop :=
  ∀ stream, ∃ taken, stream.flatten = taken ++ (receiver stream).2.flatten ∧ taken.length ≤ headerSize + limit ∧
    ∀ value, (receiver stream).1 = .ok value → taken.head? = some kind

theorem read_takes {α : Type} {kind : UInt8} {read : UInt8 × Bytes → Except ChannelError α}
    {receiver : Stream → Except ChannelError α × Stream} (limit : Nat)
    (reads : ∀ stream, receiver stream = match receiveFrame limit stream with
      | (.error e, rest) => (.error e, rest)
      | (.ok frame, rest) => (read frame, rest))
    (typed : ∀ frame value, read frame = .ok value → frame.1 = kind) : TakesWithin limit kind receiver := by
  intro stream
  obtain ⟨taken, split, within, first⟩ := receiveFrame_takes limit stream
  rw [reads]
  cases received : receiveFrame limit stream with
  | mk outcome rest =>
    rw [received] at split first
    cases outcome with
    | error e => exact ⟨taken, split, within, fun _ read => by cases read⟩
    | ok frame =>
      refine ⟨taken, split, within, fun value accepted => ?_⟩
      rw [first frame.1 frame.2 rfl, typed frame value accepted]

theorem receiveJson_takes : TakesWithin maxJsonFrame jsonKind (receiveJson json) := by
  refine read_takes maxJsonFrame (fun _ => rfl) fun frame value read => ?_
  by_contra other
  simp [readJson, other] at read

theorem receiveSecret_takes (challenge : String) :
    TakesWithin maxSecretFrame secretKind (receiveSecret challenge) := by
  refine read_takes maxSecretFrame (fun _ => rfl) fun frame value read => ?_
  by_contra other
  simp [readSecret, other] at read

/-- A conversation is received as it was sent for every split of its bytes, and no stream makes the
receiver exceed the limit of the frame it expects or take one frame type for the other. -/
theorem framing_faithful :
    (∀ (messages : List (Message Payload)) (bytes : Bytes) (stream : Stream), sendAll json messages = .ok bytes →
      Proper stream → stream.flatten = bytes →
      receiveAll json messages stream = (.ok (messages.map Message.content), [])) ∧
    TakesWithin maxJsonFrame jsonKind (receiveJson json) ∧
    (∀ challenge, TakesWithin maxSecretFrame secretKind (receiveSecret challenge)) ∧ jsonKind ≠ secretKind := by
  refine ⟨fun messages bytes stream sent proper whole => ?_, receiveJson_takes json, receiveSecret_takes, by decide⟩
  have holds : stream.flatten = bytes ++ [] := by rw [List.append_nil, whole]
  obtain ⟨later, received, left, still⟩ := receiveAll_sent json sent proper holds
  rw [received, still.eq_nil left]

end

def emptyObject : JsonCodec Unit where
  dumps _ := [123, 125]
  loads bytes := if bytes = [123, 125] then .ok (some ()) else .error (.valueError "")
  inverse _ := by simp

/-- An empty object and a secret with a NUL inside, received byte by byte. -/
theorem framing_faithful_bytewise :
    sendAll emptyObject [.json (), .secret "c" (.bytes [7, 0, 9])] =
        .ok [74, 0, 0, 0, 2, 123, 125, 83, 0, 0, 0, 5, 99, 0, 7, 0, 9] ∧
      receiveAll emptyObject [.json (), .secret "c" (.bytes [7, 0, 9])]
          ([74, 0, 0, 0, 2, 123, 125, 83, 0, 0, 0, 5, 99, 0, 7, 0, 9].map fun byte => [byte]) =
        (.ok [.json (), .secret [7, 0, 9]], []) := by
  have sent : sendAll emptyObject [.json (), .secret "c" (.bytes [7, 0, 9])] =
      .ok [74, 0, 0, 0, 2, 123, 125, 83, 0, 0, 0, 5, 99, 0, 7, 0, 9] := by rfl
  refine ⟨sent, (framing_faithful emptyObject).1 _ _ _ sent ?_ rfl⟩
  intro chunk member
  obtain ⟨byte, -, rfl⟩ := List.mem_map.1 member
  exact List.cons_ne_nil _ _

end Kassiber.Operator
