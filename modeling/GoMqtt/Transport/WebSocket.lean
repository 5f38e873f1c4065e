import Mathlib.Data.List.Infix

namespace GoMqtt.Transport

/-- What `NextReader` returns once the messages run out: a `*websocket.CloseError` or another
error. -/
inductive ConnEnd
  | closed
  | failed
  deriving DecidableEq, Repr

inductive ReadError
  | eof
  | notBinary
  | conn
  deriving DecidableEq, Repr

/-- A message reader: the chunks it still has to hand out, and whether `io.EOF` comes with the
last bytes. -/
structure MessageReader where
  chunks : List (List UInt8)
  eofWithData : Bool
  deriving DecidableEq, Repr

namespace MessageReader

def remaining (r : MessageReader) : List UInt8 :=
  r.chunks.flatten

/-- `Read` into a buffer of `len` bytes: the bytes read, whether `io.EOF` came with them, and
the reader after. The rest of a chunk that does not fit is kept for the next read. -/
def read (r : MessageReader) (len : Nat) : List UInt8 × Bool × MessageReader :=
  match r.chunks with
  | [] => ([], true, r)
  | c :: rest =>
    if len < c.length then (c.take len, false, { r with chunks := c.drop len :: rest })
    else if rest = [] ∧ r.eofWithData then (c, true, { r with chunks := [] })
    else (c, false, { r with chunks := rest })

end MessageReader

structure Message where
  binary : Bool
  reader : MessageReader
  deriving DecidableEq, Repr

/-- A `wsStream`: the reader of the current message, and what `NextReader` returns next. -/
structure WsStream where
  reader : Option MessageReader
  messages : List Message
  final : ConnEnd
  deriving DecidableEq, Repr

/-- What one `Read` returns: the count `n`, the bytes it copied into the caller's buffer, of
which the first `n` are reported, and the error. -/
structure ReadResult where
  n : Nat
  copied : List UInt8
  err : Option ReadError
  deriving DecidableEq, Repr

/-- The iterations of the loop of `Read` that start without a reader: `NextReader` is called,
its reader is read into the rest of the buffer, and on `io.EOF` the loop goes on to the next
message. Errors of `NextReader` return `0`, whatever has been copied. -/
def readMessages (len : Nat) (final : ConnEnd) (copied : List UInt8) :
    List Message → ReadResult × Option MessageReader × List Message
  | [] =>
    (⟨0, copied, some (match final with
      | .closed => .eof
      | .failed => .conn)⟩, none, [])
  | m :: ms =>
    if !m.binary then (⟨0, copied, some .notBinary⟩, none, ms)
    else
      let (data, eof, r) := m.reader.read (len - copied.length)
      if eof then readMessages len final (copied ++ data) ms
      else (⟨(copied ++ data).length, copied ++ data, none⟩, some r, ms)

namespace WsStream

/-- `Read` with a buffer of `len` bytes: the current reader is read first, if there is one. -/
def read (s : WsStream) (len : Nat) : ReadResult × WsStream :=
  let (res, reader, messages) := match s.reader with
    | none => readMessages len s.final [] s.messages
    | some r =>
      let (data, eof, r) := r.read len
      if eof then readMessages len s.final data s.messages
      else (⟨data.length, data, none⟩, some r, s.messages)
  (res, { s with reader := reader, messages := messages })

def reads (s : WsStream) : List Nat → List ReadResult
  | [] => []
  | len :: lens => (s.read len).1 :: (s.read len).2.reads lens

def pending (s : WsStream) : List UInt8 :=
  (s.reader.map MessageReader.remaining).getD [] ++ s.messages.flatMap (·.reader.remaining)

end WsStream

/-- The bytes the calls report to the caller: the first `n` of each buffer. -/
def reported (results : List ReadResult) : List UInt8 :=
  results.flatMap fun res => res.copied.take res.n

/-- One binary message whose reader returns its two bytes together with `io.EOF`, then a close:
the first `Read` copies both bytes, finds the connection closed and returns `0, io.EOF`, and no
`Read` ever reports them. -/
theorem read_loses_bytes_before_close :
    let s : WsStream := ⟨none, [⟨true, ⟨[[1, 2]], true⟩⟩], .closed⟩
    (s.read 4).1 = ⟨0, [1, 2], some .eof⟩ ∧ s.pending = [1, 2] ∧ reported (s.reads [4, 4]) = [] := by
  decide

section Spec

namespace MessageReader

variable (r : MessageReader) (len : Nat)

theorem read_append_remaining : (r.read len).1 ++ (r.read len).2.2.remaining = r.remaining := by
  unfold read
  split
  · next h => simp [remaining, h]
  · next c rest h =>
    split_ifs with hlen hlast
    · simp [remaining, h, ← List.append_assoc]
    · simp [remaining, h, hlast.1]
    · simp [remaining, h]

theorem remaining_read_of_eof (h : (r.read len).2.1 = true) : (r.read len).2.2.remaining = [] := by
  obtain ⟨chunks, eofWithData⟩ := r
  cases chunks with
  | nil => rfl
  | cons c rest =>
    simp only [read] at h ⊢
    -- only the branch of the last chunk returns `io.EOF`
    split_ifs at h ⊢ with hlen hlast
    rfl

end MessageReader

/-- What every `Read` returns: the bytes it copied come first in what was pending, and either
all of them are reported, or none and the connection has nothing more to deliver. -/
structure ReadSpec (pending : List UInt8) (res : ReadResult) (reader : Option MessageReader)
    (messages : List Message) : Prop where
  consumed : res.copied ++ ((reader.map MessageReader.remaining).getD [] ++
    messages.flatMap (·.reader.remaining)) = pending
  reported : res.n = res.copied.length ∨ (res.n = 0 ∧ reader = none ∧ messages = [])

theorem readMessages_spec (len : Nat) (final : ConnEnd) :
    ∀ (ms : List Message) (copied : List UInt8), (∀ m ∈ ms, m.binary = true) →
      ReadSpec (copied ++ ms.flatMap (·.reader.remaining)) (readMessages len final copied ms).1
        (readMessages len final copied ms).2.1 (readMessages len final copied ms).2.2 ∧
      ∀ m ∈ (readMessages len final copied ms).2.2, m ∈ ms
  | [], copied, _ => ⟨⟨by simp [readMessages], Or.inr ⟨rfl, rfl, rfl⟩⟩, by simp [readMessages]⟩
  | m :: ms, copied, hbin => by
    have hm : m.binary = true := hbin m List.mem_cons_self
    have hdata := MessageReader.read_append_remaining m.reader (len - copied.length)
    rw [readMessages, hm]
    simp only [Bool.not_true, Bool.false_eq_true, if_false]
    cases heof : (m.reader.read (len - copied.length)).2.1
    · simp only [Bool.false_eq_true, if_false]
      refine ⟨⟨?_, Or.inl rfl⟩, fun m' hm' => List.mem_cons_of_mem m hm'⟩
      simp only [Option.map_some, Option.getD_some, List.flatMap_cons, ← hdata, List.append_assoc]
    · simp only [if_true]
      have hnil := MessageReader.remaining_read_of_eof m.reader (len - copied.length) heof
      rw [hnil, List.append_nil] at hdata
      obtain ⟨hspec, hsub⟩ := readMessages_spec len final ms _
        (fun m' hm' => hbin m' (List.mem_cons_of_mem m hm'))
      refine ⟨⟨?_, hspec.reported⟩, fun m' hm' => List.mem_cons_of_mem m (hsub m' hm')⟩
      rw [hspec.consumed, List.flatMap_cons, ← hdata, List.append_assoc]

namespace WsStream

def Binary (s : WsStream) : Prop :=
  ∀ m ∈ s.messages, m.binary = true

theorem read_spec (s : WsStream) (len : Nat) (hbin : s.Binary) :
    ReadSpec s.pending (s.read len).1 (s.read len).2.reader (s.read len).2.messages ∧
      (s.read len).2.Binary := by
  obtain ⟨reader, messages, final⟩ := s
  cases reader with
  | none =>
    obtain ⟨hspec, hsub⟩ := readMessages_spec len final messages [] hbin
    exact ⟨⟨by simpa [pending, read] using hspec.consumed, hspec.reported⟩,
      fun m hm => hbin m (hsub m hm)⟩
  | some r =>
    have hdata := MessageReader.read_append_remaining r len
    cases heof : (r.read len).2.1
    · simp only [read, heof, Bool.false_eq_true, if_false]
      refine ⟨⟨?_, Or.inl rfl⟩, hbin⟩
      simp only [pending, Option.map_some, Option.getD_some, ← hdata, List.append_assoc]
    · have hnil := MessageReader.remaining_read_of_eof r len heof
      rw [hnil, List.append_nil] at hdata
      obtain ⟨hspec, hsub⟩ := readMessages_spec len final messages (r.read len).1 hbin
      simp only [read, heof, if_true]
      refine ⟨⟨?_, hspec.reported⟩, fun m hm => hbin m (hsub m hm)⟩
      rw [hspec.consumed, pending, Option.map_some, Option.getD_some, ← hdata]

theorem reported_cons (res : ReadResult) (results : List ReadResult) :
    reported (res :: results) = res.copied.take res.n ++ reported results := by
  simp [reported]

theorem reported_prefix (s : WsStream) (hbin : s.Binary) (lens : List Nat) :
    reported (s.reads lens) <+: s.pending := by
  induction lens generalizing s with
  | nil => exact List.nil_prefix
  | cons len lens ih =>
    obtain ⟨hspec, hbin'⟩ := read_spec s len hbin
    have hrest := ih (s.read len).2 hbin'
    rw [reads, reported_cons]
    rcases hspec.reported with hn | ⟨hn, hr, hm⟩
    · rw [hn, List.take_length, ← hspec.consumed]
      exact (List.prefix_append_right_inj _).mpr hrest
    · have hended : (s.read len).2.pending = [] := by
        simp [pending, hr, hm]
      rw [hended, List.prefix_nil] at hrest
      rw [hn, List.take_zero, hrest]
      exact List.nil_prefix

end WsStream

end Spec

/-- Over any binary messages, chunked in any way, and any buffer sizes, the bytes `Read` reports
are a prefix of the payloads of the messages, in order: none is duplicated or reordered. -/
theorem reads_report_prefix_of_payloads (messages : List Message) (final : ConnEnd)
    (hbin : ∀ m ∈ messages, m.binary = true) (lens : List Nat) :
    reported ((⟨none, messages, final⟩ : WsStream).reads lens) <+:
      messages.flatMap (·.reader.remaining) := by
  simpa [WsStream.pending] using WsStream.reported_prefix ⟨none, messages, final⟩ hbin lens

theorem reads_report_prefix_of_payloads_two :
    (∀ m ∈ [(⟨true, ⟨[[1, 2], [3]], false⟩⟩ : Message), ⟨true, ⟨[[4]], true⟩⟩], m.binary = true) ∧
      reported ((⟨none, [⟨true, ⟨[[1, 2], [3]], false⟩⟩, ⟨true, ⟨[[4]], true⟩⟩], .closed⟩ :
        WsStream).reads [1, 3, 2]) <+:
        [(⟨true, ⟨[[1, 2], [3]], false⟩⟩ : Message), ⟨true, ⟨[[4]], true⟩⟩].flatMap
          (·.reader.remaining) :=
  ⟨by decide, reads_report_prefix_of_payloads _ _ (by decide) _⟩

end GoMqtt.Transport
