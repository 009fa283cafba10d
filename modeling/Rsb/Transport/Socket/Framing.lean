import Rsb.Library.LittleEndian
import Rsb.Transport.Socket.ReceiveLoop

/-!
Frames on the wire.

Every message is preceded by its length as four little-endian bytes. The reader
alternates between headers and bodies; `async_read` completes a read only when
all the bytes it asks for have arrived.
-/

namespace Rsb.Transport.Socket

open Library

variable {δ : Type}

/-! ### The header -/

theorem toUInt8_mask {length : UInt32} {k : ℕ} {mask shift : UInt32}
    (hmask : mask.toNat = 255 <<< k) (hshift : shift.toNat = k) (hk : k < 32) :
    ((length &&& mask) >>> shift).toUInt8 = UInt8.ofNat (length.toNat / 2 ^ k) := by
  apply UInt8.toNat.inj
  rw [UInt32.toNat_toUInt8, UInt32.toNat_shiftRight, UInt32.toNat_and, hmask, hshift,
    Nat.mod_eq_of_lt hk, LittleEndian.and_shiftRight, UInt8.toNat_ofNat']
  omega

theorem encodeLength_eq (length : UInt32) :
    encodeLength length = LittleEndian.encode 4 length.toNat := by
  simp only [encodeLength, LittleEndian.encode, Nat.div_div_eq_div_mul]
  rw [toUInt8_mask (k := 0) rfl rfl (by omega), toUInt8_mask (k := 8) rfl rfl (by omega),
    toUInt8_mask (k := 16) rfl rfl (by omega), toUInt8_mask (k := 24) rfl rfl (by omega)]
  simp

theorem toNat_shiftLeft {b : UInt8} {shift : UInt32} {k : ℕ} (hshift : shift.toNat = k)
    (hk : k ≤ 24) : (b.toUInt32 <<< shift).toNat = b.toNat <<< k := by
  have hb : b.toNat < 2 ^ 8 := b.toNat_lt
  have hlt : b.toNat * 2 ^ k < 2 ^ 32 := by
    calc b.toNat * 2 ^ k < 2 ^ 8 * 2 ^ k := Nat.mul_lt_mul_of_pos_right hb (Nat.two_pow_pos k)
      _ ≤ 2 ^ 8 * 2 ^ 24 := Nat.mul_le_mul_left _ (Nat.pow_le_pow_right (by omega) hk)
      _ = 2 ^ 32 := rfl
  rw [UInt32.toNat_shiftLeft, UInt8.toNat_toUInt32, hshift, Nat.mod_eq_of_lt (show k < 32 by omega),
    Nat.shiftLeft_eq, Nat.mod_eq_of_lt hlt]

theorem decodeLength_eq (b₀ b₁ b₂ b₃ : UInt8) :
    (decodeLength [b₀, b₁, b₂, b₃]).toNat = LittleEndian.decode [b₀, b₁, b₂, b₃] := by
  have h₀ := b₀.toNat_lt
  have h₁ := b₁.toNat_lt
  have h₂ := b₂.toNat_lt
  simp only [decodeLength, List.getD_cons_zero, List.getD_cons_succ, UInt32.toNat_or]
  rw [toNat_shiftLeft (k := 0) rfl (by omega), toNat_shiftLeft (k := 8) rfl (by omega),
    toNat_shiftLeft (k := 16) rfl (by omega), toNat_shiftLeft (k := 24) rfl (by omega),
    Nat.shiftLeft_zero, LittleEndian.or_shiftLeft (k := 8) (by omega),
    LittleEndian.or_shiftLeft (k := 16) (by omega), LittleEndian.or_shiftLeft (k := 24) (by omega)]
  simp only [LittleEndian.decode]
  omega

theorem decodeLength_encodeLength (length : UInt32) :
    decodeLength (encodeLength length) = length := by
  have hlt : length.toNat < 256 ^ 4 := length.toNat_lt
  apply UInt32.toNat.inj
  rw [← LittleEndian.decode_encode hlt, ← encodeLength_eq]
  exact decodeLength_eq _ _ _ _

@[simp] theorem length_encodeLength (length : UInt32) : (encodeLength length).length = 4 := rfl

/-! ### The stream -/

/-- What one message becomes on the wire. -/
def frame (message : Bytes) : Bytes := encodeLength (UInt32.ofNat message.length) ++ message

/-- What is sent to the connection goes out. -/
structure BusConnection.Healthy (c : BusConnection) : Prop where
  activeShutdown : c.activeShutdown = false
  peerGone : c.peerGone = false
  socketOpen : c.socketOpen = true

theorem BusConnection.Healthy.sendMessage {c : BusConnection} (h : c.Healthy) (message : Bytes) :
    c.sendMessage message = .ok { c with written := c.written ++ frame message } := by
  simp [BusConnection.sendMessage, h.activeShutdown, h.peerGone, h.socketOpen, frame]

theorem flatMap_frame_cons (m : Bytes) (ms : List Bytes) :
    (m :: ms).flatMap frame =
      encodeLength (UInt32.ofNat m.length) ++ (m ++ ms.flatMap frame) := by
  simp [frame]

/-- The second half of `sendEvent`, called for one message after the other. -/
def BusConnection.sendMessages : List Bytes → BusConnection → Except Fault BusConnection
  | [], c => .ok c
  | m :: ms, c => do
      let c ← c.sendMessage m
      c.sendMessages ms

theorem BusConnection.sendMessages_eq (messages : List Bytes) {c : BusConnection}
    (hshutdown : c.activeShutdown = false) (hpeer : c.peerGone = false)
    (hopen : c.socketOpen = true) :
    c.sendMessages messages = .ok { c with written := c.written ++ messages.flatMap frame } := by
  induction messages generalizing c with
  | nil => simp [sendMessages]
  | cons m ms ih =>
      have hsend : c.sendMessage m = .ok { c with written := c.written ++ frame m } := by
        simp [sendMessage, hshutdown, hpeer, hopen, frame]
      have hrest : BusConnection.sendMessages ms { c with written := c.written ++ frame m } = _ :=
        ih hshutdown hpeer hopen
      rw [sendMessages, hsend]
      exact hrest.trans (by simp)

/-! ### The reader -/

/-- The number of bytes a read asks for. -/
def Read.size : Read → ℕ
  | .length => 4
  | .body expected => expected

/-- The body that a completed read yields. -/
def Read.received (read : Read) (buffer : Bytes) : List Bytes :=
  match read with
  | .length => []
  | .body _ => [buffer]

/-- A connection that receives: the rest of the stream, and the bodies its
handlers have dealt with. -/
structure Reader (δ : Type) where
  bus : Bus δ
  stream : Bytes
  seen : List Bytes

namespace Reader

variable (env : Environment) (c : ℕ)

/-- The pending read completes if the stream still holds what it asks for. -/
def step (s : Reader δ) : Option (Reader δ) :=
  match (s.bus.connection c).pending with
  | [] => none
  | read :: _ =>
      let buffer := s.stream.take read.size
      if read.size ≤ s.stream.length then
        match s.bus.complete env c ⟨.success, read.size, buffer⟩ with
        | some (.ok (), b) =>
            some ⟨b, s.stream.drop read.size, s.seen ++ read.received buffer⟩
        | _ => none
      else none

/-- Reads complete for as long as they can, `n` of them at most. -/
def run : ℕ → Reader δ → Reader δ
  | 0, s => s
  | n + 1, s =>
      match s.step env c with
      | none => s
      | some s' => run n s'

end Reader

/-- A body that the receiving bus deals with: there is memory for it, it is a
notification, and the sinks accept the event. -/
structure Bus.AcceptsMessage (env : Environment) (b : Bus δ) (message : Bytes) : Prop where
  allocates : env.allocates message.length = true
  parses : ∃ n, env.protobuf.parseFromString message = some n
  acceptable : b.Acceptable env (.body message.length) ⟨.success, message.length, message⟩

theorem Bus.Rearmed.acceptable {env : Environment} {b b' : Bus δ} {c : ℕ} {next read : Read}
    {r : Completion} (h : b.Rearmed b' c next) (hb : b.Acceptable env read r) :
    b'.Acceptable env read r := by
  cases read with
  | length => exact hb
  | body expected =>
      intro herror hbytes n hn
      obtain ⟨hwell, haccepts⟩ := hb herror hbytes n hn
      refine ⟨hwell, fun halive event hevent => ?_⟩
      obtain ⟨hfit, haccepts⟩ := haccepts (h.alive ▸ halive) event hevent
      refine ⟨hfit, fun k hk => ?_⟩
      rw [Sinks.targets, ← h.sinks.sinkDispatcher, ← h.sinks.alive] at hk
      exact (InConnector.accepts_congr (h.sinks.setup k) _ _ _ _).mp (haccepts k hk)

theorem Bus.Rearmed.acceptsMessage {env : Environment} {b b' : Bus δ} {c : ℕ} {next : Read}
    {message : Bytes} (h : b.Rearmed b' c next) (hb : b.AcceptsMessage env message) :
    b'.AcceptsMessage env message :=
  ⟨hb.allocates, hb.parses, h.acceptable hb.acceptable⟩

namespace Reader

variable {env : Environment} {c : ℕ} {b : Bus δ} {message : Bytes}

theorem decodeLength_frame (hlength : message.length < 2 ^ 32) :
    (decodeLength (encodeLength (UInt32.ofNat message.length))).toNat = message.length := by
  rw [decodeLength_encodeLength, UInt32.toNat_ofNat', Nat.mod_eq_of_lt hlength]

/-- What a step does: the pending read takes its bytes from the stream. -/
theorem step_eq_some {s s' : Reader δ} {read : Read}
    (hpending : (s.bus.connection c).pending = [read]) (husable : s.bus.Usable c)
    (hstep : s.step env c = some s') :
    read.size ≤ s.stream.length ∧ s'.stream = s.stream.drop read.size ∧
      s'.seen = s.seen ++ read.received (s.stream.take read.size) ∧
      let r : Completion := ⟨.success, read.size, s.stream.take read.size⟩
      (s.bus.Proceeds env read r → s.bus.Rearmed s'.bus c (read.next r)) ∧
        (¬s.bus.Proceeds env read r → s'.bus.Closed c) := by
  obtain ⟨result, b', hcomplete, -, hends⟩ := Bus.complete_spec env
    ⟨.success, read.size, s.stream.take read.size⟩ hpending husable
  by_cases hsize : read.size ≤ s.stream.length
  · simp only [step, hpending, hsize, if_true, hcomplete] at hstep
    cases result with
    | error f => simp at hstep
    | ok _ =>
        obtain rfl := Option.some.inj hstep
        exact ⟨hsize, rfl, rfl, hends rfl⟩
  · simp [step, hpending, hsize] at hstep

/-- A frame starts with a header that makes the reader ask for the body. -/
theorem step_header (hpending : (b.connection c).pending = [.length]) (husable : b.Usable c)
    (hlength : message.length < 2 ^ 32) (halloc : env.allocates message.length = true)
    (rest : Bytes) (seen : List Bytes) :
    ∃ b', b.Rearmed b' c (.body message.length) ∧
      step env c ⟨b, frame message ++ rest, seen⟩ = some ⟨b', message ++ rest, seen⟩ := by
  let header := encodeLength (UInt32.ofNat message.length)
  obtain ⟨result, b', hcomplete, hok, hends⟩ :=
    Bus.complete_spec env ⟨.success, 4, header⟩ hpending husable
  have hresult : result = .ok () := hok.mpr fun _ _ => by rw [decodeLength_frame hlength, halloc]
  subst hresult
  have hrearmed := (hends rfl).1 ⟨rfl, rfl⟩
  rw [Read.next, decodeLength_frame hlength] at hrearmed
  have hstream : frame message ++ rest = header ++ (message ++ rest) := by simp [frame, header]
  refine ⟨b', hrearmed, ?_⟩
  have hsize : 4 ≤ (header ++ (message ++ rest)).length := by simp [header]
  have htake : (header ++ (message ++ rest)).take 4 = header := List.take_left' rfl
  have hdrop : (header ++ (message ++ rest)).drop 4 = message ++ rest := List.drop_left' rfl
  simp only [step, hpending, Read.size, hstream, hsize, if_true, htake, hcomplete, hdrop,
    Read.received, List.append_nil]

theorem step_body (hpending : (b.connection c).pending = [.body message.length])
    (husable : b.Usable c) (halive : b.alive = true) (haccepts : b.AcceptsMessage env message)
    (rest : Bytes) (seen : List Bytes) :
    ∃ b', b.Rearmed b' c .length ∧
      step env c ⟨b, message ++ rest, seen⟩ = some ⟨b', rest, seen ++ [message]⟩ := by
  obtain ⟨result, b', hcomplete, hok, hends⟩ :=
    Bus.complete_spec env ⟨.success, message.length, message⟩ hpending husable
  have hresult : result = .ok () := hok.mpr haccepts.acceptable
  subst hresult
  refine ⟨b', (hends rfl).1 ⟨rfl, rfl, haccepts.parses, halive⟩, ?_⟩
  have hsize : message.length ≤ (message ++ rest).length := by simp
  simp only [step, hpending, Read.size, hsize, if_true, List.take_left, hcomplete, List.drop_left,
    Read.received]

/-- The frames of accepted messages are read one after the other, and then the
reader waits for the next header. -/
theorem run_frames {messages : List Bytes} (hlengths : ∀ m ∈ messages, m.length < 2 ^ 32)
    (hpending : (b.connection c).pending = [.length]) (husable : b.Usable c)
    (halive : b.alive = true) (haccepts : ∀ m ∈ messages, b.AcceptsMessage env m)
    (seen : List Bytes) (fuel : ℕ) (hfuel : 2 * messages.length ≤ fuel) :
    ∃ b', run env c fuel ⟨b, messages.flatMap frame, seen⟩ = ⟨b', [], seen ++ messages⟩ ∧
      (b'.connection c).pending = [.length] := by
  induction messages generalizing b seen fuel with
  | nil =>
      refine ⟨b, ?_, hpending⟩
      cases fuel with
      | zero => simp [run]
      | succ n => simp [run, step, hpending, Read.size]
  | cons m ms ih =>
      -- one completion for the header and one for the body
      obtain ⟨n, rfl⟩ : ∃ n, fuel = n + 2 := ⟨fuel - 2, by simp at hfuel; omega⟩
      have hm := haccepts m List.mem_cons_self
      obtain ⟨b₁, hr₁, hstep₁⟩ := step_header hpending husable (hlengths m List.mem_cons_self)
        hm.allocates (ms.flatMap frame) seen
      have husable₁ := hr₁.usable husable
      have halive₁ := hr₁.alive.trans halive
      obtain ⟨b₂, hr₂, hstep₂⟩ := step_body hr₁.pending husable₁ halive₁ (hr₁.acceptsMessage hm)
        (ms.flatMap frame) seen
      obtain ⟨b', hrun, hpending'⟩ := ih (fun x hx => hlengths x (List.mem_cons_of_mem _ hx))
        hr₂.pending (hr₂.usable husable₁) (hr₂.alive.trans halive₁)
        (fun x hx => hr₂.acceptsMessage
          (hr₁.acceptsMessage (haccepts x (List.mem_cons_of_mem _ hx))))
        (seen ++ [m]) n (by simp at hfuel; omega)
      refine ⟨b', ?_, hpending'⟩
      rw [List.flatMap_cons, run, hstep₁]
      simp only [run, hstep₂, hrun, List.append_assoc, List.singleton_append]

/-- Where a reader can stand in the frames of `messages`: before a header,
before a body, or after the last message it dealt with. -/
inductive Position (c : ℕ) (messages : List Bytes) : Reader δ → Prop
  | header (b : Bus δ) (ms seen : List Bytes) (hseen : seen ++ ms = messages)
      (hpending : (b.connection c).pending = [.length]) (husable : b.Usable c) :
      Position c messages ⟨b, ms.flatMap frame, seen⟩
  | body (b : Bus δ) (m : Bytes) (ms seen : List Bytes) (hseen : seen ++ m :: ms = messages)
      (hpending : (b.connection c).pending = [.body m.length]) (husable : b.Usable c) :
      Position c messages ⟨b, m ++ ms.flatMap frame, seen⟩
  | stopped (b : Bus δ) (stream : Bytes) (seen : List Bytes) (hseen : seen <+: messages)
      (hpending : (b.connection c).pending = []) :
      Position c messages ⟨b, stream, seen⟩

theorem Position.seen_isPrefix {messages : List Bytes} {s : Reader δ}
    (h : Position c messages s) : s.seen <+: messages := by
  cases h with
  | header b ms seen hseen => exact ⟨ms, hseen⟩
  | body b m ms seen hseen => exact ⟨m :: ms, hseen⟩
  | stopped b stream seen hseen => exact hseen

theorem Position.step {messages : List Bytes} {s s' : Reader δ}
    (hlengths : ∀ m ∈ messages, m.length < 2 ^ 32) (h : Position c messages s)
    (hstep : s.step env c = some s') : Position c messages s' := by
  cases h with
  | header b ms seen hseen hpending husable =>
      obtain ⟨hsize, hstream, hseen', hends, -⟩ := step_eq_some hpending husable hstep
      have hrearmed := hends ⟨rfl, rfl⟩
      cases ms with
      -- the stream is used up, and the read stays pending
      | nil => simp [Read.size] at hsize
      | cons m ms =>
          have hm : m ∈ messages := by simp [← hseen]
          have htake : ((m :: ms).flatMap frame).take 4 =
              encodeLength (UInt32.ofNat m.length) := by
            rw [flatMap_frame_cons]
            exact List.take_left' rfl
          have hdrop : ((m :: ms).flatMap frame).drop 4 = m ++ ms.flatMap frame := by
            rw [flatMap_frame_cons]
            exact List.drop_left' rfl
          obtain ⟨b', stream', seen'⟩ := s'
          obtain rfl : stream' = _ := hstream.trans hdrop
          obtain rfl : seen' = seen := by simpa [Read.received] using hseen'
          simp only [Read.next, Read.size, htake, decodeLength_frame (hlengths m hm)] at hrearmed
          exact .body b' m ms seen' hseen hrearmed.pending (hrearmed.usable husable)
  | body b m ms seen hseen hpending husable =>
      obtain ⟨-, hstream, hseen', hproceeds, hcloses⟩ := step_eq_some hpending husable hstep
      obtain ⟨b', stream', seen'⟩ := s'
      obtain rfl : stream' = _ := hstream.trans (List.drop_left' rfl)
      obtain rfl : seen' = seen ++ [m] := by
        simpa [Read.received, Read.size] using hseen'
      by_cases hp : b.Proceeds env (.body m.length)
          ⟨.success, m.length, (m ++ ms.flatMap frame).take m.length⟩
      · have hrearmed := hproceeds hp
        exact .header b' ms _ (by simpa using hseen) hrearmed.pending (hrearmed.usable husable)
      · exact .stopped b' _ _ ⟨ms, by simpa using hseen⟩ (hcloses hp).pending
  | stopped b stream seen hseen hpending => simp [Reader.step, hpending] at hstep

theorem Position.run {messages : List Bytes} (hlengths : ∀ m ∈ messages, m.length < 2 ^ 32)
    (n : ℕ) {s : Reader δ} (h : Position c messages s) :
    Position c messages (s.run env c n) := by
  induction n generalizing s with
  | zero => exact h
  | succ n ih =>
      rw [Reader.run]
      split
      · exact h
      · next s' hs' => exact ih (h.step hlengths hs')

end Reader

/-- Messages that are sent over a connection are read in the order in which they
were sent. The receiver sees nothing else, whatever it does with them; and if it
deals with all of them, it sees all of them, has used up the stream and waits
for the next header. -/
theorem framing_round_trip (sender : BusConnection) (hshutdown : sender.activeShutdown = false)
    (hpeer : sender.peerGone = false) (hopen : sender.socketOpen = true) (messages : List Bytes)
    (hlengths : ∀ m ∈ messages, m.length < 2 ^ 32) :
    (∀ length, decodeLength (encodeLength length) = length) ∧
    ∃ stream, sender.sendMessages messages = .ok { sender with written := sender.written ++ stream } ∧
      ∀ (env : Environment) (b : Bus δ) (c : ℕ), (b.connection c).pending = [.length] →
        b.Usable c → b.alive = true →
          (∀ n, (Reader.run env c n ⟨b, stream, []⟩).seen <+: messages) ∧
          ((∀ m ∈ messages, b.AcceptsMessage env m) → ∀ n, 2 * messages.length ≤ n →
            ∃ b', Reader.run env c n ⟨b, stream, []⟩ = ⟨b', [], messages⟩ ∧
              (b'.connection c).pending = [.length]) := by
  refine ⟨decodeLength_encodeLength, messages.flatMap frame,
    BusConnection.sendMessages_eq messages hshutdown hpeer hopen,
    fun env b c hpending husable halive => ⟨fun n => ?_, fun haccepts n hn => ?_⟩⟩
  · exact (Reader.Position.run hlengths n
      (.header b messages [] rfl hpending husable)).seen_isPrefix
  · exact Reader.run_frames hlengths hpending husable halive haccepts [] n hn

section

/-- The encoding of a notification on the root scope. -/
def rootBody : Bytes :=
  [50, 1, 47, 226, 6, 20, 10, 16, 0, 0, 0, 0, 0, 0, 0, 0, 0, 0, 0, 0, 0, 0, 0, 0, 16, 1]

def rootNotification : Protocol.Notification :=
  ⟨⟨List.replicate 16 0, 1⟩, some (bytes "/"), none, none, none, [], none⟩

def rootEnvironment : Environment where
  protobuf := {
    serializeToString := fun _ => rootBody
    parseFromString := fun b => if b = rootBody then some rootNotification else none }
  clock _ := 1
  now _ := 1
  allocates _ := true

/-- A client bus without sinks that waits for a header. -/
def waitingBus : Bus Bytes where
  alive := true
  isServer := false
  sinks := ⟨.empty, fun _ => .push ⟨⟨.predicateList [], false⟩, []⟩, fun _ => false⟩
  connections := [0]
  connection _ := ⟨true, false, false, false, [.length], []⟩

theorem framing_round_trip_rootBody :
    ∃ stream b', stream.length = 60 ∧
      Reader.run rootEnvironment 0 4 ⟨waitingBus, stream, []⟩ = ⟨b', [], [rootBody, rootBody]⟩ := by
  have haccepts : waitingBus.AcceptsMessage rootEnvironment rootBody := by
    refine ⟨rfl, ⟨rootNotification, rfl⟩, fun _ _ n hn => ?_⟩
    obtain rfl : rootNotification = n := Option.some.inj hn
    refine ⟨⟨by decide, by simp [rootNotification], Scope.root, rfl⟩, fun _ event hevent => ?_⟩
    obtain rfl := Except.ok.inj hevent
    exact ⟨by decide, fun k hk => by cases hk⟩
  obtain ⟨-, stream, hsend, hread⟩ := framing_round_trip (δ := Bytes)
    ⟨true, false, false, false, [], []⟩ rfl rfl rfl [rootBody, rootBody] (by simp [rootBody])
  obtain ⟨b', hrun, -⟩ := (hread rootEnvironment waitingBus 0 rfl ⟨rfl, rfl⟩ rfl).2
    (by simpa using haccepts) 4 (by simp)
  refine ⟨stream, b', ?_, hrun⟩
  have hwritten := congrArg BusConnection.written (Except.ok.inj hsend)
  have hstream : stream = [rootBody, rootBody].flatMap frame := by
    simpa [frame] using hwritten.symm
  rw [hstream]
  rfl

end

end Rsb.Transport.Socket
