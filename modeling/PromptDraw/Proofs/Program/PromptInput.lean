import Mathlib.Data.Nat.Find
import PromptDraw.Program.PromptInput

/-!
When a prompt can be had, said of all its bytes at once: of the text on the command
line, of the file that is named, or of the standard input. A stream may go on for ever;
what matters is whether it goes on behind the limit. Reading asks for one byte more
than the limit and so tells the two cases apart, except that a count of bytes cannot go
beyond the largest word.
-/

namespace PromptDraw

namespace ByteStream

/-- A stream of exactly these bytes. -/
def Holds (stream : ByteStream) (bytes : ByteArray) : Prop :=
  ∀ position ≤ bytes.size, stream.byte? position = bytes[position]?

/-- A stream that goes on behind its first `count` bytes. -/
def Exceeds (stream : ByteStream) (count : Nat) : Prop :=
  ∀ position ≤ count, stream.byte? position ≠ none

theorem holds_ofBytes (bytes : ByteArray) : (ofBytes bytes).Holds bytes :=
  fun _ _ => rfl

theorem Holds.exceeds_iff {stream : ByteStream} {bytes : ByteArray} (h : stream.Holds bytes)
    {count : Nat} : stream.Exceeds count ↔ count < bytes.size := by
  constructor
  · intro hexceeds
    by_contra hle
    have hnone : bytes[bytes.size]? = none := by simp
    exact hexceeds bytes.size (by omega) ((h bytes.size (Nat.le_refl _)).trans hnone)
  · intro hlt position hposition
    have hbyte : position < bytes.size := by omega
    rw [h position (by omega), getElem?_pos bytes position hbyte]
    exact Option.some_ne_none _

/-- A stream that ends has the bytes before its end. -/
theorem exists_holds_of_end {stream : ByteStream} {count : Nat}
    (hbytes : ∀ position < count, stream.byte? position ≠ none)
    (hend : stream.byte? count = none) : ∃ bytes, stream.Holds bytes ∧ bytes.size = count := by
  let bytes : ByteArray := ⟨Array.ofFn fun position : Fin count => (stream.byte? position).getD 0⟩
  have hsize : bytes.size = count := Array.size_ofFn
  refine ⟨bytes, ?_, hsize⟩
  intro position hposition
  by_cases hlt : position < count
  · obtain ⟨byte, hbyte⟩ := Option.ne_none_iff_exists'.1 (hbytes position hlt)
    rw [getElem?_pos bytes position (by omega), ByteArray.getElem_eq_getElem_data,
      Array.getElem_ofFn, hbyte]
    rfl
  · obtain rfl : position = count := by omega
    rw [hend, getElem?_neg bytes position (by omega)]

theorem exceeds_or_holds (stream : ByteStream) (count : Nat) :
    stream.Exceeds count ∨ ∃ bytes, stream.Holds bytes ∧ bytes.size ≤ count := by
  by_cases hexceeds : stream.Exceeds count
  · exact .inl hexceeds
  · simp only [Exceeds, not_forall, not_not] at hexceeds
    obtain ⟨position, hposition, hnone⟩ := hexceeds
    -- The stream holds what stands before the first position without a byte.
    have hends : ∃ position, stream.byte? position = none := ⟨position, hnone⟩
    obtain ⟨bytes, hholds, hsize⟩ := exists_holds_of_end
      (fun position hlt => Nat.find_min hends hlt) (Nat.find_spec hends)
    have hfirst : Nat.find hends ≤ position := Nat.find_min' hends hnone
    exact .inr ⟨bytes, hholds, by omega⟩

theorem size_collect {stream : ByteStream} (read : ByteArray) (position limit : Nat)
    (h : ∀ next, next < position + limit → stream.byte? next ≠ none) :
    (stream.collect position read limit).size = read.size + limit := by
  induction limit generalizing position read with
  | zero => rfl
  | succ limit ih =>
      obtain ⟨byte, hbyte⟩ := Option.ne_none_iff_exists'.1 (h position (by omega))
      have hrest := ih (read.push byte) (position + 1) fun next hnext => h next (by omega)
      rw [collect, hbyte]
      simp only [hrest, ByteArray.size_push]
      omega

theorem size_take_of_exceeds {stream : ByteStream} {count : Nat} (h : stream.Exceeds count) :
    (stream.take (count + 1)).size = count + 1 := by
  have hcollect := size_collect .empty 0 (count + 1) fun next hnext => h next (by omega)
  simpa [take] using hcollect

/-- Collecting goes on from the bytes already read to all of them. -/
theorem Holds.collect_eq {stream : ByteStream} {bytes : ByteArray} (h : stream.Holds bytes)
    {position limit : Nat} (hposition : position ≤ bytes.size)
    (hlimit : bytes.size ≤ position + limit) :
    stream.collect position (bytes.extract 0 position) limit = bytes := by
  induction limit generalizing position with
  | zero =>
      obtain rfl : position = bytes.size := by omega
      rw [collect, ByteArray.extract_zero_size]
  | succ limit ih =>
      rw [collect, h position hposition]
      by_cases hlt : position < bytes.size
      · have hpush : (bytes.extract 0 position).push bytes[position] =
            bytes.extract 0 (position + 1) := by
          apply ByteArray.ext
          rw [ByteArray.data_push, ByteArray.data_extract, ByteArray.data_extract]
          exact Array.push_extract_getElem hlt
        rw [getElem?_pos bytes position hlt]
        simp only [hpush]
        exact ih hlt (by omega)
      · obtain rfl : position = bytes.size := by omega
        simp

theorem Holds.take_eq {stream : ByteStream} {bytes : ByteArray} (h : stream.Holds bytes)
    {limit : Nat} (hlimit : bytes.size ≤ limit) : stream.take limit = bytes := by
  have hcollect := h.collect_eq (Nat.zero_le _) (Nat.zero_add limit ▸ hlimit)
  simpa [take] using hcollect

theorem Holds.unique {stream : ByteStream} {bytes bytes' : ByteArray} (h : stream.Holds bytes)
    (h' : stream.Holds bytes') : bytes = bytes' := by
  calc bytes = stream.take (max bytes.size bytes'.size) := (h.take_eq (Nat.le_max_left _ _)).symm
    _ = bytes' := h'.take_eq (Nat.le_max_right _ _)

end ByteStream

namespace Utf8

theorem decode_eq_ok_iff {bytes : ByteArray} {text : String} :
    decode bytes = .ok text ↔ text.toUTF8 = bytes := by
  unfold decode String.fromUTF8?
  constructor
  · intro h
    split at h
    · rename_i decoded hdecoded
      split at hdecoded
      · rename_i hvalid
        obtain rfl := Option.some.inj hdecoded
        obtain rfl := Except.ok.inj h
        rfl
      · cases hdecoded
    · cases h
  · rintro rfl
    have hvalid : text.toUTF8.IsValidUTF8 := text.isValidUTF8
    rw [dif_pos hvalid]
    rfl

/-- Bytes that no text has are refused with a fault. -/
theorem exists_fault_iff {bytes : ByteArray} :
    (∃ fault, decode bytes = .error fault) ↔ ∀ text : String, text.toUTF8 ≠ bytes := by
  cases hdecode : decode bytes with
  | ok text =>
      have htext := decode_eq_ok_iff.1 hdecode
      constructor
      · rintro ⟨fault, hfault⟩
        cases hfault
      · intro h
        exact absurd htext (h text)
  | error fault =>
      constructor
      · intro _ text htext
        have hok := decode_eq_ok_iff.2 htext
        rw [hdecode] at hok
        cases hok
      · intro _
        exact ⟨fault, rfl⟩

end Utf8

namespace PromptRequest

/-- The bytes of the prompt that is asked for, if they can be had. -/
def stream (host : Host) (request : PromptRequest) : Except FileFault ByteStream :=
  match request.text, request.file with
  | some text, _ => .ok (.ofBytes text.toUTF8)
  | none, some path =>
    if PromptInput.namesInput path then .ok host.standardInput
    else (host.read path).map .ofBytes
  | none, none => .ok host.standardInput

/-- Where a prompt that is not on the command line comes from. -/
def origin (request : PromptRequest) : PromptOrigin :=
  match request.file with
  | some path => if PromptInput.namesInput path then .standardInput else .file path
  | none => .standardInput

end PromptRequest

namespace PromptInput

/-- A prompt within the limit. -/
def Gives (host : Host) (limit : Nat) (request : PromptRequest) (text : String) : Prop :=
  ∃ stream, request.stream host = .ok stream ∧ stream.Holds text.toUTF8 ∧
    text.utf8ByteSize ≤ limit

/-- Why there is no prompt, and of which kind the failure is: the prompt is longer than
the limit, whatever its bytes are; it cannot be opened; or it is within the limit and no
text. -/
inductive Refuses (host : Host) (limit : Nat) (request : PromptRequest) :
    FailureKind → Failure → Prop where
  | tooLarge {stream : ByteStream} (source : request.stream host = .ok stream)
      (exceeds : stream.Exceeds limit) : Refuses host limit request .user (.promptTooLarge limit)
  | unreadable {fault : FileFault} (source : request.stream host = .error fault) :
      Refuses host limit request .io (.promptUnreadable request.origin (.file fault))
  | notText {stream : ByteStream} {bytes : ByteArray} {fault : Utf8Fault}
      (source : request.stream host = .ok stream) (holds : stream.Holds bytes)
      (fits : bytes.size ≤ limit) (notText : ∀ text : String, text.toUTF8 ≠ bytes)
      (decodes : Utf8.decode bytes = .error fault) :
      Refuses host limit request .io (.promptUnreadable request.origin (.encoding fault))

theorem ofStream_of_exceeds {stream : ByteStream} {limit : Nat} (h : stream.Exceeds limit)
    (hlimit : limit < maxRead) (origin : PromptOrigin) :
    ofStream limit origin stream = .error (.promptTooLarge limit) := by
  have hread : min (limit + 1) maxRead = limit + 1 := Nat.min_eq_left hlimit
  rw [ofStream, hread]
  exact if_pos (by rw [ByteStream.size_take_of_exceeds h]; exact Nat.lt_succ_self limit)

theorem ofStream_of_holds {stream : ByteStream} {bytes : ByteArray} {limit : Nat}
    (h : stream.Holds bytes) (hfits : bytes.size ≤ limit) (hlimit : limit ≤ maxRead)
    (origin : PromptOrigin) :
    ofStream limit origin stream =
      (Utf8.decode bytes).mapError fun fault => .promptUnreadable origin (.encoding fault) := by
  have htake : stream.take (min (limit + 1) maxRead) = bytes := h.take_eq (by omega)
  rw [ofStream, htake]
  exact if_neg (by omega)

/-- A prompt that is not on the command line is read as the stream that it comes as. -/
theorem read_of_no_text {request : PromptRequest} (h : request.text = none) (host : Host)
    (limit : Nat) :
    read host limit request =
      match request.stream host with
      | .error fault => .error (.promptUnreadable request.origin (.file fault))
      | .ok stream => ofStream limit request.origin stream := by
  obtain ⟨file, text, json⟩ := request
  obtain rfl : text = none := h
  cases file with
  | none => rfl
  | some path =>
      simp only [PromptRequest.stream, PromptRequest.origin, read]
      by_cases hinput : namesInput path = true
      · simp only [if_pos hinput]
      · simp only [if_neg hinput, ofFile]
        cases host.read path with
        | error fault | ok bytes => rfl

/-- The three ways in which a prompt is come by: from the command line, not at all, and
as a stream. -/
theorem read_cases (host : Host) (request : PromptRequest) :
    (∃ text, request.stream host = .ok (.ofBytes text.toUTF8) ∧
      ∀ limit, read host limit request = ofText limit text) ∨
    (∃ fault, request.stream host = .error fault ∧
      ∀ limit, read host limit request = .error (.promptUnreadable request.origin (.file fault))) ∨
    (∃ stream, request.stream host = .ok stream ∧
      ∀ limit, read host limit request = ofStream limit request.origin stream) := by
  cases htext : request.text with
  | some text =>
      obtain ⟨file, text, json⟩ := request
      cases htext
      exact .inl ⟨_, rfl, fun _ => rfl⟩
  | none =>
      have hread := read_of_no_text htext host
      cases hstream : request.stream host with
      | error fault =>
          rw [hstream] at hread
          exact .inr (.inl ⟨fault, rfl, hread⟩)
      | ok stream =>
          rw [hstream] at hread
          exact .inr (.inr ⟨stream, rfl, hread⟩)

variable {host : Host} {request : PromptRequest} {limit : Nat}

theorem read_of_fault {fault : FileFault} (h : request.stream host = .error fault) :
    read host limit request = .error (.promptUnreadable request.origin (.file fault)) := by
  obtain ⟨text, hstream, -⟩ | ⟨fault', hstream, hread⟩ | ⟨stream, hstream, -⟩ :=
    read_cases host request
  · rw [h] at hstream
    cases hstream
  · rw [h] at hstream
    cases hstream
    exact hread limit
  · rw [h] at hstream
    cases hstream

theorem read_of_exceeds {stream : ByteStream} (h : request.stream host = .ok stream)
    (hexceeds : stream.Exceeds limit) (hlimit : limit < maxRead) :
    read host limit request = .error (.promptTooLarge limit) := by
  obtain ⟨text, hstream, hread⟩ | ⟨fault, hstream, -⟩ | ⟨stream', hstream, hread⟩ :=
    read_cases host request
  · rw [h] at hstream
    cases hstream
    have hlarge : limit < text.toUTF8.size := (ByteStream.holds_ofBytes _).exceeds_iff.1 hexceeds
    rw [hread, ofText]
    exact if_pos hlarge
  · rw [h] at hstream
    cases hstream
  · rw [h] at hstream
    cases hstream
    rw [hread, ofStream_of_exceeds hexceeds hlimit]

theorem read_of_holds {stream : ByteStream} {bytes : ByteArray}
    (h : request.stream host = .ok stream) (hholds : stream.Holds bytes)
    (hfits : bytes.size ≤ limit) (hlimit : limit ≤ maxRead) :
    read host limit request =
      (Utf8.decode bytes).mapError fun fault =>
        .promptUnreadable request.origin (.encoding fault) := by
  obtain ⟨text, hstream, hread⟩ | ⟨fault, hstream, -⟩ | ⟨stream', hstream, hread⟩ :=
    read_cases host request
  · rw [h] at hstream
    cases hstream
    have hbytes : text.toUTF8 = bytes := (ByteStream.holds_ofBytes _).unique hholds
    have hsmall : ¬limit < text.utf8ByteSize := by
      intro hlarge
      rw [← hbytes] at hfits
      exact Nat.lt_irrefl _ (Nat.lt_of_lt_of_le hlarge hfits)
    rw [hread, ofText, Utf8.decode_eq_ok_iff.2 hbytes]
    exact if_neg hsmall
  · rw [h] at hstream
    cases hstream
  · rw [h] at hstream
    cases hstream
    rw [hread, ofStream_of_holds hholds hfits hlimit]

theorem read_of_gives {text : String} (h : Gives host limit request text)
    (hlimit : limit ≤ maxRead) : read host limit request = .ok text := by
  obtain ⟨stream, hstream, hholds, hfits⟩ := h
  rw [read_of_holds hstream hholds hfits hlimit, Utf8.decode_eq_ok_iff.2 rfl]
  rfl

/-- Only under the largest limit there is has a prompt to end, because more bytes than
that cannot be counted. -/
def Countable (host : Host) (limit : Nat) (request : PromptRequest) : Prop :=
  ∀ stream, request.stream host = .ok stream → stream.Exceeds limit → limit < maxRead

theorem read_of_refuses {kind : FailureKind} {failure : Failure}
    (h : Refuses host limit request kind failure) (hlimit : limit ≤ maxRead)
    (hcount : Countable host limit request) :
    read host limit request = .error failure := by
  cases h with
  | tooLarge source exceeds => exact read_of_exceeds source exceeds (hcount _ source exceeds)
  | unreadable source => exact read_of_fault source
  | notText source holds fits notText decodes =>
      rw [read_of_holds source holds fits hlimit, decodes]
      rfl

/-- What can be told of a stream under a limit: it is longer, or it is a text, or its
bytes are no text. -/
theorem exceeds_or_text_or_fault (stream : ByteStream) (limit : Nat) :
    stream.Exceeds limit ∨
      (∃ text : String, stream.Holds text.toUTF8 ∧ text.utf8ByteSize ≤ limit) ∨
      ∃ bytes fault, stream.Holds bytes ∧ bytes.size ≤ limit ∧
        (∀ text : String, text.toUTF8 ≠ bytes) ∧ Utf8.decode bytes = .error fault := by
  obtain hexceeds | ⟨bytes, hholds, hfits⟩ := stream.exceeds_or_holds limit
  · exact .inl hexceeds
  · cases hdecode : Utf8.decode bytes with
    | ok text =>
        obtain rfl := Utf8.decode_eq_ok_iff.1 hdecode
        exact .inr (.inl ⟨text, hholds, hfits⟩)
    | error fault =>
        have hnotText := Utf8.exists_fault_iff.1 ⟨fault, hdecode⟩
        exact .inr (.inr ⟨bytes, fault, hholds, hfits, hnotText, hdecode⟩)

/-- A prompt is either there or refused. -/
theorem gives_or_refuses (host : Host) (limit : Nat) (request : PromptRequest) :
    (∃ text, Gives host limit request text) ∨
      ∃ kind failure, Refuses host limit request kind failure := by
  cases hstream : request.stream host with
  | error fault => exact .inr ⟨_, _, .unreadable hstream⟩
  | ok stream =>
      obtain hexceeds | ⟨text, hholds, hfits⟩ | ⟨bytes, fault, hholds, hfits, hnotText, hdecode⟩ :=
        exceeds_or_text_or_fault stream limit
      · exact .inr ⟨_, _, .tooLarge hstream hexceeds⟩
      · exact .inl ⟨text, stream, hstream, hholds, hfits⟩
      · exact .inr ⟨_, _, .notText hstream hholds hfits hnotText hdecode⟩

end PromptInput

end PromptDraw
