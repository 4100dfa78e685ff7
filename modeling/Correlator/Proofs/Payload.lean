import Correlator.Proofs.Bodies
import Correlator.Proofs.Text.Lines
import Correlator.Proofs.Text.Utf8

/-!
# Payloads

What a byte string stands for as the payload of an event, told in its own terms: it is read as a
text, the line end that the text ends in goes, and a carriage return before a line feed goes.

* **`Text.payloadText_of_reads`**: the payload of any byte string, those whose payload is empty,
  and the texts that are their own payload.
* **`Text.line_ends_of_payload`**: the line ends that are left in a payload. One more round would
  take more of them away, and a body of two line ends is no empty payload.
-/

namespace Correlator.Text

theorem toList_payloadText (bs : Octets) :
    (payloadText bs).toList = rejoin (Utf8.decode bs) :=
  String.toList_ofList

theorem payloadText_eq_empty_iff (bs : Octets) :
    payloadText bs = "" ↔
      Utf8.decode bs = [] ∨ Utf8.decode bs = ['\n'] ∨ Utf8.decode bs = ['\r', '\n'] := by
  rw [← rejoin_eq_nil_iff, ← toList_payloadText, String.toList_eq_nil_iff]

/-- The texts that are their own payload. -/
theorem payloadText_ofString_eq_iff (s : String) :
    payloadText (Octets.ofString s) = s ↔
      ¬ ['\r', '\n'] <:+: s.toList ∧ ¬ ['\n'] <:+ s.toList := by
  rw [← rejoin_eq_self_iff, ← String.toList_inj, toList_payloadText, Octets.decode_ofString]

/-- **The payload of a byte string.** The string reads as one text. The payload is this text
without the line end that it ends in and with a line feed for each carriage return and line feed. It
is empty just when the text is empty or a single line end. A text is its own payload just when
there is nothing in it that goes. -/
theorem payloadText_of_reads (bs : Octets) (s : String) :
    (∃ cs, (∀ cs', Utf8.Reads bs cs' ↔ cs' = cs) ∧
      (payloadText bs).toList = bare (chomp cs) ∧
      (payloadText bs = "" ↔ cs = [] ∨ cs = ['\n'] ∨ cs = ['\r', '\n'])) ∧
    (payloadText (Octets.ofString s) = s ↔
      ¬ ['\r', '\n'] <:+: s.toList ∧ ¬ ['\n'] <:+ s.toList) := by
  refine ⟨⟨Utf8.decode bs, Utf8.reads_iff bs, ?_, payloadText_eq_empty_iff bs⟩,
    payloadText_ofString_eq_iff s⟩
  rw [toList_payloadText, rejoin_eq]

/-! ## Line ends that are left -/

theorem payloadText_lineEnds (ends : List LineEnd) :
    payloadText (Utf8.encode (lineEnds ends)) =
      String.ofList (List.replicate (ends.length - 1) '\n') := by
  rw [payloadText, Utf8.decode_encode, rejoin_lineEnds]

/-- A body of line ends becomes an event unless there is one of them at most. -/
theorem event?_lineEnds {ends : List LineEnd} {d : Dispatch} {body : Body} {limit : Nat}
    (hwhole : body.Whole) (hbytes : body.bytes = Utf8.encode (lineEnds ends))
    (hlength : body.bytes.length ≤ limit) :
    d.event? body limit =
      if 2 ≤ ends.length then some (d.event (payloadText body.bytes)) else none := by
  have hempty : payloadText body.bytes ≠ "" ↔ 2 ≤ ends.length := by
    rw [hbytes, payloadText_lineEnds, ne_eq, ← String.toList_eq_nil_iff, String.toList_ofList,
      List.replicate_eq_nil_iff]
    omega
  simp only [Dispatch.event?, hwhole, hlength, hempty, true_and]

/-- **The line ends that are left in a payload.** A carriage return and line feed is left where
two carriage returns stand before a line feed that is not the last character, and a line feed is
left at the end of a text that ends in two line ends. A payload that neither is left in is its own
payload, and no other is. Of a body of line ends all but one are left, as line feeds: it becomes an
event just when there are two of them or more. -/
theorem line_ends_of_payload (bs : Octets) :
    (['\r', '\n'] <:+: (payloadText bs).toList ↔
      ∃ c, ['\r', '\r', '\n', c] <:+: Utf8.decode bs) ∧
    (['\n'] <:+ (payloadText bs).toList ↔
      ['\n', '\n'] <:+ Utf8.decode bs ∨ ['\n', '\r', '\n'] <:+ Utf8.decode bs) ∧
    (payloadText (Octets.ofString (payloadText bs)) = payloadText bs ↔
      ¬ ['\r', '\n'] <:+: (payloadText bs).toList ∧ ¬ ['\n'] <:+ (payloadText bs).toList) ∧
    ∀ ends : List LineEnd,
      payloadText (Utf8.encode (lineEnds ends)) =
        String.ofList (List.replicate (ends.length - 1) '\n') ∧
      ∀ (d : Dispatch) (body : Body) (limit : Nat), body.Whole →
        body.bytes = Utf8.encode (lineEnds ends) → body.bytes.length ≤ limit →
        (d.run body limit).2.1 =
          if 2 ≤ ends.length then some (d.event (payloadText body.bytes)) else none := by
  refine ⟨?_, ?_, payloadText_ofString_eq_iff _, fun ends => ⟨payloadText_lineEnds ends, ?_⟩⟩
  · rw [toList_payloadText, returnFeed_infix_rejoin_iff]
  · rw [toList_payloadText, feed_suffix_rejoin_iff]
  · intro d body limit hwhole hbytes hlength
    rw [d.event?_run, event?_lineEnds hwhole hbytes hlength]

/-- A body of two line feeds that comes in two pieces becomes the event of one line feed. -/
theorem line_ends_of_payload_feeds :
    Body.Whole [.chunk [10], .chunk [10]] ∧
      Body.bytes [.chunk [10], .chunk [10]] = Utf8.encode (lineEnds [.feed, .feed]) ∧
      ((default : Dispatch).run [.chunk [10], .chunk [10]] 2).2.1 =
        some ((default : Dispatch).event (payloadText [10, 10])) := by
  refine ⟨by decide, by decide, ?_⟩
  exact ((line_ends_of_payload [10, 10]).2.2.2 [.feed, .feed]).2 default _ 2 (by decide)
    (by decide) (by decide)

/-- Of two line feeds one is left, which goes in one more round, and the body is forwarded; two
carriage returns before a line feed leave a carriage return and line feed. -/
theorem line_ends_left :
    ['\n'] <:+ (payloadText [10, 10]).toList ∧
      payloadText (Octets.ofString (payloadText [10, 10])) ≠ payloadText [10, 10] ∧
      ((default : Dispatch).run [.chunk [10, 10]] 2).1 = .forwarded ∧
      ['\r', '\n'] <:+: (payloadText [13, 13, 10, 97]).toList := by
  decide +kernel

end Correlator.Text
