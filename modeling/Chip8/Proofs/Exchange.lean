import Chip8.Handoff
import Mathlib.Data.List.Basic
import Mathlib.Data.List.DropRight
import Mathlib.Data.List.Induction

/-! What crosses a handoff, told by the history of all accesses to it. Frames, keys and the tone go
through channels of their own: each is answered from the accesses that concern it, whatever
happens in between and whoever asks.
-/

namespace Chip8.Handoff

-----------------------------------------------------------------------------------------
-- Histories
-----------------------------------------------------------------------------------------

/-- Whoever holds an end of a handoff: the interpreter, or one of the front ends. These are clones of
each other, so a number tells them apart.
-/
inductive Holder where
  | interpreter
  | frontEnd (number : Nat)
  deriving DecidableEq, Repr

/-- An operation, and whoever performs it. -/
structure Access where
  holder : Holder
  operation : Operation
  deriving DecidableEq, Repr

/-- What a fresh handoff comes to through accesses in order. -/
def after (history : List Access) : Handoff :=
  (fresh.performAll (history.map Access.operation)).2

/-- What accesses in order are answered. -/
def answers (history : List Access) : List Answer :=
  (fresh.performAll (history.map Access.operation)).1

/-- The frames that are handed out, to whomever, in order. -/
def taken (history : List Access) : List Frame :=
  (answers history).filterMap fun
    | .frame frame? => frame?
    | _ => none

namespace Operation

/-- The frame that an operation publishes. -/
def frame? : Operation → Option Frame
  | publish frame => some frame
  | _ => none

/-- To what an operation sets a key, if it sets this one. -/
def press? (key : Nibble) : Operation → Option Bool
  | setKey other pressed => if other = key then some pressed else none
  | _ => none

/-- To what an operation sets the tone. -/
def sounding? : Operation → Option Bool
  | startTone => some true
  | stopTone => some false
  | _ => none

end Operation

/-- What the accesses of a history say of one matter, in order. -/
def told {α : Type} (about : Operation → Option α) (history : List Access) : List α :=
  history.filterMap fun access => about access.operation

/-- The accesses behind the last take; all of them, if no frame was asked for. -/
def sinceTake (history : List Access) : List Access :=
  history.rtakeWhile fun access => access.operation != .takeFrame

-----------------------------------------------------------------------------------------
-- One more access
-----------------------------------------------------------------------------------------

theorem performAll_append (handoff : Handoff) (before since : List Operation)
    : handoff.performAll (before ++ since)
      = ((handoff.performAll before).1 ++ ((handoff.performAll before).2.performAll since).1,
          ((handoff.performAll before).2.performAll since).2) := by
  induction before generalizing handoff with
  | nil => rfl
  | cons operation rest ih => simp only [List.cons_append, performAll, ih]

theorem after_concat (history : List Access) (access : Access)
    : after (history ++ [access]) = ((after history).perform access.operation).2 := by
  simp only [after, List.map_append, performAll_append]
  rfl

theorem answers_concat (history : List Access) (access : Access)
    : answers (history ++ [access])
      = answers history ++ [((after history).perform access.operation).1] := by
  simp only [answers, List.map_append, performAll_append]
  rfl

theorem length_answers (history : List Access) : (answers history).length = history.length := by
  induction history using List.reverseRecOn with
  | nil => rfl
  | append_singleton history access ih =>
      rw [answers_concat, List.length_append, List.length_append, ih]
      rfl

theorem told_concat {α : Type} (about : Operation → Option α) (history : List Access)
    (access : Access)
    : told about (history ++ [access]) = told about history ++ (about access.operation).toList := by
  rw [told, List.filterMap_append, List.filterMap_cons, told]
  cases about access.operation <;> rfl

theorem getLast?_told_concat {α : Type} (about : Operation → Option α) (history : List Access)
    (access : Access)
    : (told about (history ++ [access])).getLast?
      = (about access.operation).or (told about history).getLast? := by
  rw [told_concat, List.getLast?_append]
  cases about access.operation <;> rfl

theorem sinceTake_concat (history : List Access) (access : Access)
    : sinceTake (history ++ [access])
      = if access.operation = .takeFrame then [] else sinceTake history ++ [access] := by
  rw [sinceTake, List.rtakeWhile_concat, sinceTake]
  by_cases takes : access.operation = .takeFrame <;> simp [takes]

-----------------------------------------------------------------------------------------
-- Each channel is changed by its own operations
-----------------------------------------------------------------------------------------

theorem pending_perform (handoff : Handoff) (operation : Operation)
    : (handoff.perform operation).2.pending?
      = if operation = .takeFrame then none else operation.frame?.or handoff.pending? := by
  cases operation <;> rfl

theorem keypad_perform (handoff : Handoff) (operation : Operation) (key : Nibble)
    : (handoff.perform operation).2.keypad.get key
      = (operation.press? key).getD (handoff.keypad.get key) := by
  cases operation with
  | setKey other pressed =>
      have changed : (handoff.keypad.set other.val pressed)[key.val]
          = if other.val = key.val then pressed else handoff.keypad[key.val] :=
        Vector.getElem_set other.isLt key.isLt
      show (handoff.keypad.set other.val pressed)[key.val] = _
      rw [changed, Operation.press?]
      simp only [Fin.val_inj]
      split <;> rfl
  | _ => rfl

theorem tone_perform (handoff : Handoff) (operation : Operation)
    : (handoff.perform operation).2.tone = operation.sounding?.getD handoff.tone := by
  cases operation <;> rfl

-----------------------------------------------------------------------------------------
-- What a history comes to
-----------------------------------------------------------------------------------------

/-- What is pending is the latest frame published behind the last take, by induction over the history
from its end.
-/
theorem pending_after (history : List Access)
    : (after history).pending? = (told Operation.frame? (sinceTake history)).getLast? := by
  induction history using List.reverseRecOn with
  | nil => rfl
  | append_singleton history access ih =>
      rw [after_concat, pending_perform, sinceTake_concat, ih]
      split
      · rfl
      · rw [getLast?_told_concat]

/-- What is pending is the latest frame of all, since the frames published behind the last take come
after the others.
-/
theorem published_last_of_pending {history : List Access} {frame : Frame}
    (pending : (after history).pending? = some frame)
    : (told Operation.frame? history).getLast? = some frame := by
  have ends : told Operation.frame? (sinceTake history) <:+ told Operation.frame? history :=
    (List.rtakeWhile_suffix _ _).filterMap _
  obtain ⟨older, split⟩ := ends
  rw [pending_after] at pending
  rw [← split, List.getLast?_append, pending, Option.some_or]

theorem keypad_after (history : List Access) (key : Nibble)
    : (after history).keypad.get key
      = (told (Operation.press? key) history).getLast?.getD false := by
  induction history using List.reverseRecOn with
  | nil => simp [after, performAll, fresh, told, Vector.get]
  | append_singleton history access ih =>
      rw [after_concat, keypad_perform, getLast?_told_concat, ih]
      cases access.operation.press? key <;> rfl

theorem tone_after (history : List Access)
    : (after history).tone = (told Operation.sounding? history).getLast?.getD false := by
  induction history using List.reverseRecOn with
  | nil => rfl
  | append_singleton history access ih =>
      rw [after_concat, tone_perform, getLast?_told_concat, ih]
      cases access.operation.sounding? <;> rfl

-----------------------------------------------------------------------------------------
-- What is asked of a handoff
-----------------------------------------------------------------------------------------

theorem toByte_lt_toByte {key other : Nibble} (h : key < other) : key.toByte < other.toByte := by
  rw [UInt8.lt_iff_toNat_lt, Nibble.toNat_toByte, Nibble.toNat_toByte]
  exact h

theorem toByte_inj {key other : Nibble} (h : key.toByte = other.toByte) : key = other := by
  apply Fin.ext
  rw [← Nibble.toNat_toByte, ← Nibble.toNat_toByte, h]

theorem pressedKeys_ascending (handoff : Handoff) : handoff.pressedKeys.Pairwise (· < ·) := by
  apply List.Pairwise.map Nibble.toByte fun _ _ => toByte_lt_toByte
  exact (List.pairwise_lt_finRange 16).filter _

theorem mem_pressedKeys {handoff : Handoff} {byte : UInt8}
    : byte ∈ handoff.pressedKeys
      ↔ ∃ key : Nibble, handoff.keypad.get key = true ∧ Nibble.toByte key = byte := by
  simp [pressedKeys]

theorem toByte_mem_pressedKeys {handoff : Handoff} {key : Nibble}
    : key.toByte ∈ handoff.pressedKeys ↔ handoff.keypad.get key = true := by
  rw [mem_pressedKeys]
  constructor
  · rintro ⟨other, pressed, same⟩
    rw [← toByte_inj same]
    exact pressed
  · intro pressed
    exact ⟨key, pressed, rfl⟩

theorem le_of_mem_pressedKeys {handoff : Handoff} {byte : UInt8}
    (pressed : byte ∈ handoff.pressedKeys)
    : byte ≤ 15 := by
  obtain ⟨key, _, rfl⟩ := mem_pressedKeys.mp pressed
  rw [UInt8.le_iff_toNat_le, Nibble.toNat_toByte]
  exact Nat.le_of_lt_succ key.isLt

-----------------------------------------------------------------------------------------
-- What is taken
-----------------------------------------------------------------------------------------

theorem taken_concat (history : List Access) (access : Access)
    : taken (history ++ [access])
      = taken history
        ++ if access.operation = .takeFrame then (after history).pending?.toList else [] := by
  rw [taken, answers_concat, List.filterMap_append, taken]
  congr 1
  cases access.operation with
  | takeFrame =>
      show List.filterMap _ [Answer.frame (after history).pending?] = _
      cases (after history).pending? <;> rfl
  | _ => rfl

/-- The frames taken and the one pending were published in this order, by induction over the history
from its end: what is published comes last, and what is taken was pending.
-/
theorem taken_pending_sublist (history : List Access)
    : (taken history ++ (after history).pending?.toList).Sublist
        (told Operation.frame? history) := by
  induction history using List.reverseRecOn with
  | nil => exact List.Sublist.refl []
  | append_singleton history access ih =>
      rw [taken_concat, after_concat, pending_perform, told_concat]
      cases takes : access.operation with
      | publish frame =>
          have earlier : (taken history).Sublist (told Operation.frame? history) :=
            (List.sublist_append_left _ _).trans ih
          simpa [Operation.frame?] using earlier.append (List.Sublist.refl [frame])
      | takeFrame => simpa [Operation.frame?] using ih
      | _ => simpa [Operation.frame?] using ih

/-- What is pending was published behind every take, by induction over the history from its end. -/
theorem pending_published {history : List Access} {frame : Frame}
    (pending : (after history).pending? = some frame)
    : ∃ before access since,
        history = before ++ access :: since
        ∧ access.operation = .publish frame
        ∧ ∀ later ∈ since, later.operation ≠ .takeFrame := by
  induction history using List.reverseRecOn with
  | nil => contradiction
  | append_singleton history access ih =>
      rw [after_concat, pending_perform] at pending
      split at pending
      · contradiction
      · next untaken =>
          cases publishes : access.operation with
          | publish other =>
              rw [publishes] at pending
              obtain rfl : other = frame := Option.some.inj pending
              exact ⟨history, access, [], rfl, publishes, nofun⟩
          | _ =>
              rw [publishes] at pending untaken
              obtain ⟨before, publication, since, rfl, shown, untouched⟩ := ih pending
              refine ⟨before, publication, since ++ [access], by simp, shown, ?_⟩
              intro later behind
              rcases List.mem_append.mp behind with behind | last
              · exact untouched later behind
              · rw [List.mem_singleton.mp last, publishes]
                exact untaken

/-- Each access is answered from the accesses before it, by induction over the history from its end.
-/
theorem getElem?_answers (history : List Access) (moment : Nat)
    : (answers history)[moment]?
      = history[moment]?.map fun access =>
          ((after (history.take moment)).perform access.operation).1 := by
  induction history using List.reverseRecOn with
  | nil => rfl
  | append_singleton history access ih =>
      rw [answers_concat]
      rcases Nat.lt_trichotomy moment history.length with inside | rfl | beyond
      · rw [List.getElem?_append_left (length_answers history ▸ inside),
          List.getElem?_append_left inside, List.take_append_of_le_length inside.le, ih]
      · rw [← length_answers, List.getElem?_concat_length, length_answers,
          List.getElem?_concat_length, List.take_left]
        rfl
      · have outside : (history ++ [access])[moment]? = none := by
          simp only [List.getElem?_eq_none_iff, List.length_append, List.length_singleton]
          omega
        rw [outside, Option.map_none, List.getElem?_eq_none_iff, List.length_append,
          length_answers, List.length_singleton]
        omega

theorem perform_frame {handoff : Handoff} {operation : Operation} {frame? : Option Frame}
    (answered : (handoff.perform operation).1 = .frame frame?)
    : operation = .takeFrame ∧ handoff.pending? = frame? := by
  cases operation with
  | takeFrame => exact ⟨rfl, Answer.frame.inj answered⟩
  | _ => contradiction

theorem takes_of_answer {history : List Access} {moment : Nat} {frame? : Option Frame}
    (answered : (answers history)[moment]? = some (.frame frame?))
    : ∃ access,
        history[moment]? = some access
        ∧ access.operation = .takeFrame
        ∧ (after (history.take moment)).pending? = frame? := by
  rw [getElem?_answers] at answered
  obtain ⟨access, listed, performed⟩ := Option.map_eq_some_iff.mp answered
  obtain ⟨takes, pending⟩ := perform_frame performed
  exact ⟨access, listed, takes, pending⟩

/-- A frame that is handed out was published behind every earlier take, whoever took: the publication
that the later take gets has no take behind it, and the earlier take is no publication.
-/
theorem published_between {history : List Access} {earlier later : Nat} (order : earlier < later)
    {frame? : Option Frame} {frame : Frame}
    (first : (answers history)[earlier]? = some (.frame frame?))
    (second : (answers history)[later]? = some (.frame (some frame)))
    : ∃ moment access,
        earlier < moment
        ∧ moment < later
        ∧ history[moment]? = some access
        ∧ access.operation = .publish frame := by
  obtain ⟨taking, listed, takes, _⟩ := takes_of_answer first
  obtain ⟨_, _, _, pending⟩ := takes_of_answer second
  obtain ⟨before, publication, since, split, publishes, untaken⟩ := pending_published pending
  have bound : before.length < later := by
    have lengths := congrArg List.length split
    simp only [List.length_take, List.length_append, List.length_cons] at lengths
    omega
  have within (moment : Nat) (inside : moment < later)
      : history[moment]? = (before ++ publication :: since)[moment]? := by
    rw [← split, List.getElem?_take_of_lt inside]
  have placed : history[before.length]? = some publication := by
    simp [within _ bound]
  refine ⟨before.length, publication, ?_, bound, placed, publishes⟩
  rcases Nat.lt_trichotomy earlier before.length with ahead | rfl | behind
  · exact ahead
  · obtain rfl := Option.some.inj (listed.symm.trans placed)
    exact absurd (takes.symm.trans publishes) nofun
  · obtain ⟨place, rfl⟩ := Nat.exists_eq_add_of_lt behind
    rw [within _ order, Nat.add_assoc, List.getElem?_append_right (Nat.le_add_right _ _),
      Nat.add_sub_cancel_left, List.getElem?_cons_succ] at listed
    exact absurd takes (untaken taking (List.mem_of_getElem? listed))

-----------------------------------------------------------------------------------------
-- Frames, keys and the tone
-----------------------------------------------------------------------------------------

/-- Whatever an interpreter and any number of front ends have done with a handoff, in whatever order:
the frames handed out are some of those published, in their order, and between two takes of which
the later one gets a frame this frame was published, so no publication is handed out twice. The
next take, whoever takes, gets nothing exactly if nothing was published since the last take, and
else the frame published last. The next poll reports, in ascending order and none above fifteen,
the keys that were pressed when they were last set. The tone shall sound exactly if the last
command was to start it.
-/
theorem frames_keys_and_tone_cross_apart (history : List Access)
    : (taken history).Sublist (told Operation.frame? history)
      ∧ (∀ (earlier later : Nat) (frame? : Option Frame) (frame : Frame),
          earlier < later
          → (answers history)[earlier]? = some (.frame frame?)
          → (answers history)[later]? = some (.frame (some frame))
          → ∃ (moment : Nat) (access : Access),
              earlier < moment
              ∧ moment < later
              ∧ history[moment]? = some access
              ∧ access.operation = .publish frame)
      ∧ ∀ holder : Holder,
          (∃ frame?,
            answers (history ++ [⟨holder, .takeFrame⟩]) = answers history ++ [.frame frame?]
            ∧ (frame? = none ↔ told Operation.frame? (sinceTake history) = [])
            ∧ ∀ frame,
                frame? = some frame
                → (told Operation.frame? history).getLast? = some frame)
          ∧ (∃ keys,
              answers (history ++ [⟨holder, .pressedKeys⟩]) = answers history ++ [.keys keys]
              ∧ keys.Pairwise (· < ·)
              ∧ (∀ byte ∈ keys, byte ≤ 15)
              ∧ ∀ key : Nibble,
                  key.toByte ∈ keys
                  ↔ (told (Operation.press? key) history).getLast? = some true)
          ∧ ∃ sounding,
              answers (history ++ [⟨holder, .tone⟩]) = answers history ++ [.tone sounding]
              ∧ (sounding = true
                ↔ (told Operation.sounding? history).getLast? = some true) := by
  have default_false (said : Option Bool) : said.getD false = true ↔ said = some true := by
    cases said <;> simp
  refine ⟨?_, fun _ _ _ _ order first second => published_between order first second, ?_⟩
  · exact (List.sublist_append_left _ _).trans (taken_pending_sublist history)
  intro holder
  refine ⟨⟨(after history).pending?, answers_concat _ _, ?_, ?_⟩,
    ⟨(after history).pressedKeys, answers_concat _ _, pressedKeys_ascending _, ?_, ?_⟩,
    ⟨(after history).tone, answers_concat _ _, ?_⟩⟩
  · rw [pending_after, List.getLast?_eq_none_iff]
  · exact fun _ pending => published_last_of_pending pending
  · exact fun _ pressed => le_of_mem_pressedKeys pressed
  · intro key
    rw [toByte_mem_pressedKeys, keypad_after, default_false]
  · rw [tone_after, default_false]

/-- Two front ends share a handoff to which one frame is published three times. The second
publication is taken by the first of them, and the third one by the other.
-/
theorem frame_published_again_is_taken_again
    : let lit := Frame.blank.flip (.sprite 0 0 [0x80])
      let history : List Access :=
        [⟨.interpreter, .publish lit⟩, ⟨.interpreter, .publish lit⟩, ⟨.frontEnd 1, .takeFrame⟩,
          ⟨.frontEnd 2, .setKey 0x3 true⟩, ⟨.frontEnd 2, .takeFrame⟩, ⟨.interpreter, .startTone⟩,
          ⟨.interpreter, .publish lit⟩, ⟨.frontEnd 2, .takeFrame⟩, ⟨.frontEnd 1, .takeFrame⟩]
      answers history
          = [.done, .done, .frame (some lit), .done, .frame none, .done, .done, .frame (some lit),
            .frame none]
        ∧ (taken history).Sublist [lit, lit, lit]
        ∧ ∃ (moment : Nat) (access : Access),
            2 < moment
            ∧ moment < 7
            ∧ history[moment]? = some access
            ∧ access.operation = .publish lit := by
  intro lit history
  have told_frames : told Operation.frame? history = [lit, lit, lit] := rfl
  have answered : answers history
      = [.done, .done, .frame (some lit), .done, .frame none, .done, .done, .frame (some lit),
        .frame none] :=
    rfl
  obtain ⟨ordered, between, _⟩ := frames_keys_and_tone_cross_apart history
  rw [told_frames] at ordered
  refine ⟨answered, ordered, ?_⟩
  apply between 2 7 (some lit) lit (by decide) <;> rw [answered] <;> rfl

end Chip8.Handoff
