import StacksDex.Model.Event

/-!
# StacksDex — print events as the API returns them

The event half of `rpc/block_walker.rs`: from the JSON shape of an event to a
`StacksEvent`. Anything that is not a decodable print is skipped: another event
type, a topic other than `print`, a missing field, hex that does not decode, a value
that is no tuple.

The slice `s[i..i + 2]` of the hex decoder panics inside a character, and then nothing is
returned at all. So the loop over the raw events has two outcomes, a list or a panic, and
never an `Err` (`noErr_decodeRawEvents`).
-/

namespace StacksDex.Model

/-- The value of a print, as hex. -/
structure RawLogValue where
  hex : Option String

structure RawContractLog where
  contractId : String
  topic : String
  value : Option RawLogValue

structure RawEvent where
  eventType : String
  eventIndex : Nat
  /-- Present on `smart_contract_log` events. -/
  contractLog : Option RawContractLog

/-! ## Hex -/

/-- The value of a hex digit. -/
def hexDigit (b : UInt8) : Option Nat :=
  let n := b.toNat
  if 48 ≤ n ∧ n ≤ 57 then some (n - 48)
  else if 97 ≤ n ∧ n ≤ 102 then some (n - 87)
  else if 65 ≤ n ∧ n ≤ 70 then some (n - 55)
  else none

/-- `u8::from_str_radix(.., 16)` on two bytes: a leading `+` is a sign. -/
def u8FromHex (a b : UInt8) : Option UInt8 :=
  -- 43 is `+`
  if a = 43 then (hexDigit b).map UInt8.ofNat
  else do
    let hi ← hexDigit a
    let lo ← hexDigit b
    some (UInt8.ofNat (16 * hi + lo))

/-- A byte that continues a UTF-8 character. -/
def isContinuation (b : UInt8) : Bool := 128 ≤ b.toNat ∧ b.toNat < 192

/-- The loop of `hex_decode`, two bytes a round. -/
def hexPairs : List UInt8 → Except Fault (List UInt8)
  | a :: b :: rest =>
    -- the second byte of the pair does not end a character
    if rest.head?.any isContinuation then
      .error (.panic "byte index is not a char boundary")
    else
      match u8FromHex a b with
      | none => .error (.err "invalid digit found in string")
      | some x => do .ok (x :: (← hexPairs rest))
  | _ => .ok []

/-- `hex_decode`. -/
def hexDecode (s : String) : Except Fault (List UInt8) :=
  if (asBytes s).length % 2 ≠ 0 then .error (.err "odd-length hex string")
  else hexPairs (asBytes s)

/-- `s.strip_prefix("0x").unwrap_or(s)`. -/
def stripHexMark (s : String) : String :=
  match s.toList with
  | '0' :: 'x' :: rest => String.ofList rest
  | _ => s

/-! ## Payloads -/

/-- The text of an `action` or `op` field. -/
def Fields.text (m : Fields) (key : String) : Option String :=
  match m.get key with
  | some (.stringAscii s) => some s
  | some (.stringUtf8 s) => some s
  | _ => none

/-- `decode_print_payload`: `action` with the payload under `data`, or `op` with the
payload at the top level. -/
def decodePrintPayload (emitter : Principal) (txId : String) (eventIndex : Nat)
    (payload : ClarityValue) : Option StacksEvent :=
  match payload with
  | .tuple fields =>
    match Fields.text fields "action" with
    | some action =>
      -- a payload without a `data` tuple has no fields
      let data := match Fields.get fields "data" with
        | some (.tuple d) => d
        | _ => []
      some { emitter, txId, eventIndex, action, data }
    | none => do
      -- Velar's core: no `action`, the fields at the top level
      let action ← Fields.text fields "op"
      some { emitter, txId, eventIndex, action, data := fields }
  | _ => none

/-! ## Events -/

/-- One round of the event loops of `decode_tx` and `fetch_tx_events`. -/
def decodeRawEvent (sha256 : Sha256) (txId : String) (ev : RawEvent) :
    Except Fault (Option StacksEvent) :=
  if ev.eventType ≠ "smart_contract_log" then .ok none
  else
    match ev.contractLog with
    | none => .ok none
    | some cl =>
      if cl.topic ≠ "print" then .ok none
      else
        -- whatever fails to decode from here on skips the event
        match cl.value.bind RawLogValue.hex with
        | none => .ok none
        | some hex => do
          let some emitter ← dropErr (Principal.parse sha256 cl.contractId) | .ok none
          let some bytes ← dropErr (hexDecode (stripHexMark hex)) | .ok none
          let some (payload, _) ← dropErr (cvDecode bytes 0) | .ok none
          .ok (decodePrintPayload emitter txId ev.eventIndex payload)

/-- The event loop. -/
def decodeRawEvents (sha256 : Sha256) (txId : String) :
    List RawEvent → Except Fault (List StacksEvent)
  | [] => .ok []
  | ev :: rest => do
    let decoded ← decodeRawEvent sha256 txId ev
    let others ← decodeRawEvents sha256 txId rest
    .ok (decoded.toList ++ others)

/-- What does not decode is skipped, and nothing else can go wrong but a panic. -/
theorem noErr_decodeRawEvent (sha256 : Sha256) (txId : String) (ev : RawEvent) :
    NoErr (decodeRawEvent sha256 txId ev) := by
  unfold decodeRawEvent
  -- the three early exits, then one `let .. else continue` after the other
  split
  · exact noErr_ok _
  · split
    · exact noErr_ok _
    · split
      · exact noErr_ok _
      · split
        · exact noErr_ok _
        · refine (noErr_dropErr _).bind ?_
          intro emitter
          cases emitter with
          | none => exact noErr_ok _
          | some emitter =>
            refine (noErr_dropErr _).bind ?_
            intro bytes
            cases bytes with
            | none => exact noErr_ok _
            | some bytes =>
              refine (noErr_dropErr _).bind ?_
              intro payload
              cases payload with
              | none => exact noErr_ok _
              | some payload => exact noErr_ok _

/-- So a page of raw events is never rejected: it is decoded as far as possible, or the decoder
panics. -/
theorem noErr_decodeRawEvents (sha256 : Sha256) (txId : String) (evs : List RawEvent) :
    NoErr (decodeRawEvents sha256 txId evs) := by
  induction evs with
  | nil => exact noErr_ok _
  | cons ev rest ih =>
    exact (noErr_decodeRawEvent sha256 txId ev).bind fun _ => ih.bind fun _ => noErr_ok _

/-- What decodes is kept, wherever it stands among entries that do not. -/
theorem mem_decodeRawEvents {sha256 : Sha256} {txId : String} {evs : List RawEvent}
    {events : List StacksEvent} (h : decodeRawEvents sha256 txId evs = .ok events)
    {ev : RawEvent} (hev : ev ∈ evs) {event : StacksEvent}
    (hdecoded : decodeRawEvent sha256 txId ev = .ok (some event)) : event ∈ events := by
  induction evs generalizing events with
  | nil => cases hev
  | cons first rest ih =>
    obtain ⟨decoded, hfirst, h⟩ := bind_eq_ok.mp h
    obtain ⟨others, hothers, h⟩ := bind_eq_ok.mp h
    cases h
    rcases List.mem_cons.mp hev with rfl | hrest
    · rw [hdecoded] at hfirst
      cases hfirst
      exact List.mem_append_left _ (List.mem_singleton.mpr rfl)
    · exact List.mem_append_right _ (ih hothers hrest)

end StacksDex.Model
