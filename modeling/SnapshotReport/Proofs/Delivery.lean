import SnapshotReport.Proofs.Failures

/-! Delivery of a report. Nothing of it leaves before all of it is made, so a receiver is called
once with the whole text, or not at all. What the receiver says to it is passed on. -/
namespace SnapshotReport

/-- Of all bytes, those of its UTF-8 form alone are read as the text. -/
theorem Text.utf8Decode?_eq_some_iff {text : String} {bytes : ByteArray} :
    bytes.utf8Decode? = some text.toList.toArray ↔ bytes = text.toUTF8 := by
  rw [String.toUTF8_eq_toByteArray, ← String.utf8Encode_toList]
  constructor
  · intro read
    have valid : bytes.utf8Decode?.isSome = true := by rw [read]; rfl
    have chars : (bytes.utf8Decode?.get valid).toList = text.toList := by
      rw [Option.get_of_eq_some valid read, List.toList_toArray]
    rw [← chars, ByteArray.utf8Encode_get_utf8Decode?]
  · rintro rfl
    exact List.utf8Decode?_utf8Encode

example : "aé€😀".toUTF8.data.toList =
    [0x61, 0xC3, 0xA9, 0xE2, 0x82, 0xAC, 0xF0, 0x9F, 0x98, 0x80] := by
  decide

namespace Serializer

variable {n : Nat} {ε : Type} {m : Type → Type} [Monad m] [LawfulMonad m] {serializer : Serializer}
  {s : Snapshot n}

/-- Sending a text is nothing but one call of the receiver. -/
theorem send_of_ok {text : String} (made : serializer.serialize s = .ok text)
    (sink : ByteArray → ExceptT ε m Unit) :
    serializer.send s sink = (sink text.toUTF8).adapt .sink := by
  rw [send, made]
  exact pure_bind text _

/-- The receiver is not called if there is no text. -/
theorem send_of_error {error : SerializationError} (failed : serializer.serialize s = .error error)
    (sink : ByteArray → ExceptT ε m Unit) :
    serializer.send s sink = throw (.serialization error) := by
  rw [send, failed]
  exact pure_bind (Except.error _) _

/-- A receiver that keeps what it is given answers as it would without keeping it. -/
theorem run_recorder (sink : ByteArray → Except ε Unit) (chunk : ByteArray)
    (chunks : List ByteArray) :
    (recorder sink chunk).run.run chunks = (sink chunk, chunks ++ [chunk]) := by
  rw [recorder]
  cases sink chunk <;> rfl

theorem run_adapt {ε' σ : Type} (f : ε → ε') (action : ExceptT ε (StateM σ) Unit) (state : σ) :
    (action.adapt f).run.run state =
      ((action.run.run state).1.mapError f, (action.run.run state).2) :=
  rfl

theorem write_of_ok {text : String} (made : serializer.serialize s = .ok text)
    (sink : ByteArray → Except ε Unit) :
    serializer.write s sink = ⟨[text.toUTF8], (sink text.toUTF8).mapError .sink⟩ := by
  rw [write, send_of_ok made, run_adapt, run_recorder]
  rfl

theorem write_of_error {error : SerializationError} (failed : serializer.serialize s = .error error)
    (sink : ByteArray → Except ε Unit) :
    serializer.write s sink = ⟨[], .error (.serialization error)⟩ := by
  rw [write, send_of_error failed]
  rfl

/-- A report that has a text is received in one piece, as the bytes of this text in UTF-8, and the
answer of the receiver is that of the delivery. If there is no text, no receiver is called. Which of
the two it is does not depend on the receiver. -/
theorem delivered_whole_or_not_at_all (s : Snapshot n) (depth : Number) :
    (∀ text, (readable depth).serialize s = .ok text → ∃ chunk,
      (∀ bytes : ByteArray, bytes.utf8Decode? = some text.toList.toArray ↔ bytes = chunk) ∧
      (∀ (ε : Type) (m : Type → Type) [Monad m] [LawfulMonad m]
        (sink : ByteArray → ExceptT ε m Unit),
        (readable depth).send s sink = (sink chunk).adapt .sink) ∧
      ∀ (ε : Type) (sink : ByteArray → Except ε Unit),
        ((readable depth).write s sink).chunks = [chunk] ∧
        (sink chunk = .ok () → ((readable depth).write s sink).result = .ok ()) ∧
        ∀ error, sink chunk = .error error →
          ((readable depth).write s sink).result = .error (.sink error)) ∧
    (∀ error, (readable depth).serialize s = .error error →
      (∀ (ε : Type) (m : Type → Type) [Monad m] [LawfulMonad m]
        (sink : ByteArray → ExceptT ε m Unit),
        (readable depth).send s sink = throw (.serialization error)) ∧
      ∀ (ε : Type) (sink : ByteArray → Except ε Unit),
        ((readable depth).write s sink).chunks = [] ∧
        ((readable depth).write s sink).result = .error (.serialization error)) ∧
    ∀ (ε : Type) (sink : ByteArray → Except ε Unit),
      ((readable depth).write s sink).chunks ≠ [] ↔ Report.Readable s depth := by
  refine ⟨fun text made => ⟨text.toUTF8, fun bytes => Text.utf8Decode?_eq_some_iff, ?_, ?_⟩,
    fun error failed => ⟨?_, ?_⟩, fun ε sink => ?_⟩
  · intro ε m _ _ sink
    exact send_of_ok made sink
  · intro ε sink
    rw [write_of_ok made]
    refine ⟨rfl, fun taken => ?_, fun error refused => ?_⟩
    · rw [taken]
      rfl
    · rw [refused]
      rfl
  · intro ε m _ _ sink
    exact send_of_error failed sink
  · intro ε sink
    rw [write_of_error failed]
    exact ⟨rfl, rfl⟩
  · constructor
    · intro received
      by_contra unreadable
      obtain ⟨failure, later, found⟩ :=
        List.exists_cons_of_ne_nil (mt Report.failures_eq_nil_iff.mp unreadable)
      rw [write_of_error (Report.serialize_of_failures found)] at received
      exact received rfl
    · intro readable
      obtain ⟨text, made⟩ := Report.serialize_of_readable readable
      rw [write_of_ok made]
      exact List.cons_ne_nil _ _

/-- A snapshot without entities, whose user has a name with characters of one to four bytes. -/
def polyglot : Snapshot 0 where
  graph := ⟨#v[]⟩
  source := ⟨"u", "p", "v", "zoë €😀"⟩
  structural := ⟨⟨"g"⟩, none, none⟩
  types := []
  groups := []
  twoLevel := true
  buckets := ∅

/-- A receiver that takes nothing has still been given the whole report, and its error is the one of
the delivery. -/
theorem polyglot_refused : ∃ text chunk, (readable .one).serialize polyglot = .ok text ∧
    chunk.utf8Decode? = some text.toList.toArray ∧
    (readable .one).write polyglot (fun _ => .error "full") = ⟨[chunk], .error (.sink "full")⟩ := by
  have unhindered : Report.Readable polyglot .one := by
    constructor
    · exact List.not_mem_nil
    · exact fun some => absurd rfl some
    · exact fun _ _ i => i.elim0
  obtain ⟨text, made⟩ := Report.serialize_of_readable unhindered
  obtain ⟨delivered, -, -⟩ := delivered_whole_or_not_at_all polyglot .one
  obtain ⟨chunk, read, -, written⟩ := delivered text made
  obtain ⟨chunks, -, refused⟩ := written String fun _ => .error "full"
  refine ⟨text, chunk, made, (read chunk).mpr rfl, ?_⟩
  rw [← chunks, ← refused "full" rfl]

end Serializer

end SnapshotReport
