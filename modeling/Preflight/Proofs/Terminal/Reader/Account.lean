import Preflight.Terminal.Reader

/-!
This module contains that a reader accounts for everything that happens on its input: what the reads
come to is a matter of what has been taken off the input and of when the interrupt flag was raised.
-/

namespace Preflight

namespace InputItem

def raises : InputItem → Bool
  | flag => true
  | cut raises => raises
  | _ => false

def isRetried : InputItem → Bool
  | cut _ => true
  | failure error => error.isRetried
  | _ => false

def result? : InputItem → Option (Except ReadError UInt8)
  | byte b => some (if b = Reader.ctrlC then .error .interrupted else .ok b)
  | flag => none
  | cut _ => none
  | failure error => if error.isRetried then none else some (.error (.io error))
  | ending => some (.error .ended)

end InputItem

namespace Reader

inductive Act where
  | interrupt
  | readByte
  | readKey
  deriving DecidableEq

def perform (reader : Reader) : Act → Option (Except ReadError UInt8) × Reader
  | .interrupt => (none, reader.interrupt)
  | .readByte => (some reader.readByte.1, reader.readByte.2)
  | .readKey => (some (reader.readKey.1.map Prod.fst), reader.readKey.2)

def run (reader : Reader) : List Act → List (Except ReadError UInt8) × Reader
  | [] => ([], reader)
  | act :: acts =>
    let (result?, next) := reader.perform act
    let (results, last) := next.run acts
    (result?.toList ++ results, last)

inductive Event where
  | taken (item : InputItem)
  | raised
  | checked

def Event.item? : Event → Option InputItem
  | taken item => some item
  | raised => none
  | checked => none

/--
The results that are due, when `flag` tells whether the interrupt flag has been raised since it was
looked at last. All items are delivered that can be, and whenever the flag is looked at it makes for
one interrupt, no matter how often it was raised. It is raised or not in the end.
-/
def report (flag : Bool) : List Event → List (Except ReadError UInt8) × Bool
  | [] => ([], flag)
  | .taken item :: events =>
    let (results, last) := report (flag || item.raises) events
    (item.result?.toList ++ results, last)
  | .raised :: events => report true events
  | .checked :: events =>
    let (results, last) := report false events
    (if flag then .error .interrupted :: results else results, last)

structure Turn where
  act : Act
  taken : List InputItem

def eventsOf (taken : List InputItem) : List Event :=
  taken.flatMap fun item => if item.isRetried then [.taken item, .checked] else [.taken item]

def Turn.events (turn : Turn) : List Event :=
  match turn.act with
  | .interrupt => .raised :: eventsOf turn.taken
  | .readByte | .readKey => .checked :: eventsOf turn.taken

theorem report_taken (flag : Bool) (item : InputItem) (events : List Event) :
    report flag (.taken item :: events) =
      (item.result?.toList ++ (report (flag || item.raises) events).1,
        (report (flag || item.raises) events).2) := rfl

theorem report_checked (flag : Bool) (events : List Event) :
    report flag (.checked :: events) =
      ((if flag then .error .interrupted :: (report false events).1 else (report false events).1),
        (report false events).2) := rfl

theorem report_append (flag : Bool) (front back : List Event) :
    report flag (front ++ back) =
      ((report flag front).1 ++ (report (report flag front).2 back).1,
        (report (report flag front).2 back).2) := by
  induction front generalizing flag with
  | nil => rfl
  | cons event front ih =>
    rw [List.cons_append]
    cases event with
    | taken item => simp [report, ih]
    | raised => simp [report, ih]
    | checked =>
      simp only [report, ih]
      split
      · rfl
      · rfl

def IsTaken (taken script rest : List InputItem) : Prop :=
  ∃ n, taken ++ rest = script ++ List.replicate n .ending ∧ (n = 0 ∨ rest = [])

theorem IsTaken.append {front back script middle rest : List InputItem}
    (hfront : IsTaken front script middle) (hback : IsTaken back middle rest) :
    IsTaken (front ++ back) script rest := by
  obtain ⟨m, hm, hmiddle⟩ := hfront
  obtain ⟨n, hn, hrest⟩ := hback
  refine ⟨m + n, ?_, ?_⟩
  · rw [List.append_assoc, hn, ← List.append_assoc, hm, List.append_assoc,
      List.replicate_append_replicate]
  · rcases hmiddle with rfl | rfl
    · rcases hrest with rfl | hrest
      · exact .inl rfl
      · exact .inr hrest
    · rcases hrest with rfl | hrest
      · simp only [List.replicate_zero, List.append_nil, List.append_eq_nil_iff] at hn
        exact .inr hn.2
      · exact .inr hrest

theorem IsTaken.single (item : InputItem) (script : List InputItem) :
    IsTaken [item] (item :: script) script := ⟨0, by simp, .inl rfl⟩

theorem result?_of_isRetried {item : InputItem} (h : item.isRetried = true) :
    item.result? = none := by
  cases item with
  | cut raises => rfl
  | failure error => exact if_pos h
  | byte byte => contradiction
  | flag => contradiction
  | ending => contradiction

theorem eventsOf_cons (item : InputItem) (taken : List InputItem) :
    eventsOf (item :: taken) =
      (if item.isRetried then [.taken item, .checked] else [.taken item]) ++ eventsOf taken :=
  List.flatMap_cons

theorem report_eventsOf_of_isRetried {item : InputItem} (h : item.isRetried = true) (flag : Bool)
    (taken : List InputItem) :
    report flag (eventsOf (item :: taken)) =
      ((if flag || item.raises then [.error .interrupted] else []) ++
          (report false (eventsOf taken)).1,
        (report false (eventsOf taken)).2) := by
  rw [eventsOf_cons, if_pos h]
  simp only [List.cons_append, List.nil_append, report, result?_of_isRetried h, Option.toList_none]
  split
  · rfl
  · rfl

theorem report_eventsOf_of_not_isRetried {item : InputItem} (h : item.isRetried = false)
    (flag : Bool) (taken : List InputItem) :
    report flag (eventsOf (item :: taken)) =
      (item.result?.toList ++ (report (flag || item.raises) (eventsOf taken)).1,
        (report (flag || item.raises) (eventsOf taken)).2) := by
  rw [eventsOf_cons, h]
  rfl

theorem exists_taken_await (script : List InputItem) (flag : Bool) :
    ∃ taken, IsTaken taken script (await script flag).2.1 ∧
      report flag (eventsOf taken) = ([(await script flag).1], (await script flag).2.2) := by
  induction script generalizing flag with
  | nil =>
    refine ⟨[.ending], ⟨1, rfl, .inr rfl⟩, ?_⟩
    rw [report_eventsOf_of_not_isRetried rfl]
    simp [await, eventsOf, report, InputItem.result?, InputItem.raises]
  | cons item script ih =>
    have hsingle := IsTaken.single item script
    cases item with
    | byte byte =>
      refine ⟨_, hsingle, ?_⟩
      rw [report_eventsOf_of_not_isRetried rfl]
      simp [await, eventsOf, report, InputItem.result?, InputItem.raises]
    | flag =>
      obtain ⟨taken, htaken, hreport⟩ := ih true
      refine ⟨_, hsingle.append htaken, ?_⟩
      rw [List.singleton_append, report_eventsOf_of_not_isRetried rfl]
      simp [await, hreport, InputItem.result?, InputItem.raises]
    | cut raises =>
      rw [await]
      by_cases hflag : (flag || raises) = true
      · rw [if_pos hflag]
        refine ⟨_, hsingle, ?_⟩
        rw [report_eventsOf_of_isRetried rfl, InputItem.raises, if_pos hflag]
        rfl
      · obtain ⟨taken, htaken, hreport⟩ := ih false
        rw [if_neg hflag]
        refine ⟨_, hsingle.append htaken, ?_⟩
        rw [List.singleton_append, report_eventsOf_of_isRetried rfl, InputItem.raises,
          if_neg hflag, hreport]
        rfl
    | failure error =>
      rw [await]
      by_cases hretried : error.isRetried = true
      · have hitem : (InputItem.failure error).isRetried = true := hretried
        rw [if_pos hretried]
        cases flag with
        | true =>
          refine ⟨_, hsingle, ?_⟩
          rw [report_eventsOf_of_isRetried hitem]
          rfl
        | false =>
          obtain ⟨taken, htaken, hreport⟩ := ih false
          refine ⟨_, hsingle.append htaken, ?_⟩
          rw [List.singleton_append, report_eventsOf_of_isRetried hitem, hreport]
          rfl
      · have hitem : (InputItem.failure error).isRetried = false := Bool.eq_false_iff.2 hretried
        rw [if_neg hretried]
        refine ⟨_, hsingle, ?_⟩
        rw [report_eventsOf_of_not_isRetried hitem, InputItem.result?, if_neg hretried]
        simp [eventsOf, report, InputItem.raises]
    | ending =>
      refine ⟨_, hsingle, ?_⟩
      rw [report_eventsOf_of_not_isRetried rfl]
      simp [await, eventsOf, report, InputItem.result?, InputItem.raises]

def decoderAfter (decoder : Decoder) : Except ReadError UInt8 → Decoder
  | .error .interrupted => .ground
  | _ => decoder

theorem readByte_of_interrupted {reader : Reader} (h : reader.interrupted = true) :
    reader.readByte = (.error .interrupted, ⟨reader.script, false, .ground⟩) := by
  unfold readByte
  rw [if_pos h]

theorem readByte_of_not_interrupted {reader : Reader} (h : reader.interrupted = false) :
    reader.readByte =
      ((await reader.script false).1, ⟨(await reader.script false).2.1,
        (await reader.script false).2.2,
        decoderAfter reader.decoder (await reader.script false).1⟩) := by
  unfold readByte
  rw [h, if_neg Bool.false_ne_true]
  split
  · next heq => rw [heq, decoderAfter]
  · next result script flag hne heq =>
    rw [heq, decoderAfter]
    exact hne

theorem exists_taken_readByte (reader : Reader) :
    ∃ taken, IsTaken taken reader.script reader.readByte.2.script ∧
      report reader.interrupted (.checked :: eventsOf taken) =
        ([reader.readByte.1], reader.readByte.2.interrupted) := by
  cases hflag : reader.interrupted with
  | true =>
    rw [readByte_of_interrupted hflag]
    exact ⟨[], ⟨0, by simp, .inl rfl⟩, rfl⟩
  | false =>
    obtain ⟨taken, htaken, hreport⟩ := exists_taken_await reader.script false
    rw [readByte_of_not_interrupted hflag]
    refine ⟨taken, htaken, ?_⟩
    rw [report, hreport]
    rfl

theorem readKey_eq (reader : Reader) :
    reader.readKey.1.map Prod.fst = reader.readByte.1 ∧
      reader.readKey.2.script = reader.readByte.2.script ∧
      reader.readKey.2.interrupted = reader.readByte.2.interrupted := by
  unfold readKey
  obtain ⟨result, next⟩ := reader.readByte
  cases result with
  | ok byte => exact ⟨rfl, rfl, rfl⟩
  | error error => exact ⟨rfl, rfl, rfl⟩

theorem exists_turn (reader : Reader) (act : Act) :
    ∃ turn : Turn, turn.act = act ∧
      IsTaken turn.taken reader.script (reader.perform act).2.script ∧
      report reader.interrupted turn.events =
        ((reader.perform act).1.toList, (reader.perform act).2.interrupted) := by
  obtain ⟨taken, htaken, hreport⟩ := exists_taken_readByte reader
  cases act with
  | interrupt => exact ⟨⟨.interrupt, []⟩, rfl, ⟨0, by simp [perform, interrupt], .inl rfl⟩, rfl⟩
  | readByte => exact ⟨⟨.readByte, taken⟩, rfl, htaken, hreport⟩
  | readKey =>
    obtain ⟨hresult, hscript, hinterrupted⟩ := readKey_eq reader
    refine ⟨⟨.readKey, taken⟩, rfl, ?_, ?_⟩
    · rw [perform, hscript]
      exact htaken
    · rw [perform, hresult, hinterrupted]
      exact hreport

theorem decoder_readByte (reader : Reader) :
    reader.readByte.2.decoder = decoderAfter reader.decoder reader.readByte.1 := by
  cases hflag : reader.interrupted with
  | true => rw [readByte_of_interrupted hflag, decoderAfter]
  | false => rw [readByte_of_not_interrupted hflag]

theorem decoderAfter_error (decoder : Decoder) (error : ReadError) :
    decoderAfter decoder (.error error) = if error = .interrupted then .ground else decoder := by
  cases error with
  | io error => rfl
  | interrupted => rfl
  | ended => rfl

theorem decoder_perform {reader : Reader} {act : Act} {error : ReadError}
    (h : (reader.perform act).1 = some (.error error)) :
    (reader.perform act).2.decoder = if error = .interrupted then .ground else reader.decoder := by
  rw [← decoderAfter_error]
  cases act with
  | interrupt => contradiction
  | readByte =>
    have hresult : reader.readByte.1 = .error error := Option.some.inj h
    rw [← hresult]
    exact decoder_readByte reader
  | readKey =>
    have hresult : reader.readByte.1 = .error error := by
      rw [← (readKey_eq reader).1]
      exact Option.some.inj h
    rw [← hresult, ← decoder_readByte, perform, readKey]
    cases hread : reader.readByte with
    | mk result next =>
      rw [hread] at hresult
      cases hresult
      rfl

theorem filterMap_item?_eventsOf (taken : List InputItem) :
    (eventsOf taken).filterMap Event.item? = taken := by
  induction taken with
  | nil => rfl
  | cons item taken ih =>
    rw [eventsOf_cons, List.filterMap_append, ih]
    split
    · rfl
    · rfl

theorem filterMap_item?_flatMap_events (turns : List Turn) :
    (turns.flatMap Turn.events).filterMap Event.item? = turns.flatMap Turn.taken := by
  induction turns with
  | nil => rfl
  | cons turn turns ih =>
    rw [List.flatMap_cons, List.flatMap_cons, List.filterMap_append, ih, Turn.events]
    split
    · exact congrArg (· ++ _) (filterMap_item?_eventsOf turn.taken)
    · exact congrArg (· ++ _) (filterMap_item?_eventsOf turn.taken)
    · exact congrArg (· ++ _) (filterMap_item?_eventsOf turn.taken)

def isInterrupt : Except ReadError UInt8 → Bool
  | .error .interrupted => true
  | _ => false

theorem filter_report (flag : Bool) (events : List Event) :
    (report flag events).1.filter (!isInterrupt ·) =
      ((events.filterMap Event.item?).filterMap InputItem.result?).filter (!isInterrupt ·) := by
  induction events generalizing flag with
  | nil => rfl
  | cons event events ih =>
    cases event with
    | taken item =>
      have hitems : (Event.taken item :: events).filterMap Event.item? =
          item :: events.filterMap Event.item? := rfl
      rw [report_taken, hitems, List.filterMap_cons]
      dsimp only
      rw [List.filter_append, ih, ← List.filter_append]
      cases item.result? with
      | none => rfl
      | some result => rfl
    | raised => exact ih true
    | checked =>
      rw [report_checked]
      cases flag with
      | false => exact ih false
      | true => exact ih false

/--
Whether what was done with a reader so far has come to just what was due: each item that was taken
off the input has had its result, and so has each time that the interrupt flag was seen raised. The
decoder loses what it has read by an interrupt and by no other failure.
-/
structure IsAccounted (start : Reader) (turns : List Turn) (results : List (Except ReadError UInt8))
    (now : Reader) : Prop where
  taken : IsTaken (turns.flatMap Turn.taken) start.script now.script
  report_eq : report start.interrupted (turns.flatMap Turn.events) = (results, now.interrupted)
  delivered : results.filter (!isInterrupt ·) =
    ((turns.flatMap Turn.taken).filterMap InputItem.result?).filter (!isInterrupt ·)
  decoder : ∀ act error, (now.perform act).1 = some (.error error) →
    (now.perform act).2.decoder = if error = .interrupted then .ground else now.decoder

theorem isAccounted_of_report {start now : Reader} {turns : List Turn}
    {results : List (Except ReadError UInt8)}
    (htaken : IsTaken (turns.flatMap Turn.taken) start.script now.script)
    (hreport : report start.interrupted (turns.flatMap Turn.events) =
      (results, now.interrupted)) : IsAccounted start turns results now where
  taken := htaken
  report_eq := hreport
  delivered := by
    rw [← filterMap_item?_flatMap_events, ← filter_report start.interrupted, hreport]
  decoder := fun _ _ => decoder_perform

theorem isAccounted_nil (reader : Reader) : IsAccounted reader [] [] reader :=
  isAccounted_of_report ⟨0, by simp, .inl rfl⟩ rfl

theorem run_isAccounted (reader : Reader) (acts : List Act) :
    ∃ turns : List Turn, turns.map Turn.act = acts ∧
      ∀ k, IsAccounted reader (turns.take k) (reader.run (acts.take k)).1
        (reader.run (acts.take k)).2 := by
  induction acts generalizing reader with
  | nil =>
    refine ⟨[], rfl, ?_⟩
    intro k
    rw [List.take_nil, List.take_nil]
    exact isAccounted_nil reader
  | cons act acts ih =>
    obtain ⟨turn, rfl, htaken, hreport⟩ := exists_turn reader act
    obtain ⟨turns, rfl, haccounted⟩ := ih (reader.perform turn.act).2
    refine ⟨turn :: turns, rfl, ?_⟩
    intro k
    cases k with
    | zero => exact isAccounted_nil reader
    | succ k =>
      have hrest := haccounted k
      apply isAccounted_of_report
      · exact htaken.append hrest.taken
      · rw [List.take_succ_cons, List.flatMap_cons, report_append, hreport, hrest.report_eq]
        rfl

-- A flag that is raised while a byte is waited for does not cost the byte.
example :
    ((ofScript [.flag, .byte 0x61]).run [.readByte, .readByte]).1 =
      [.ok 0x61, .error .interrupted] := rfl

end Reader

end Preflight
