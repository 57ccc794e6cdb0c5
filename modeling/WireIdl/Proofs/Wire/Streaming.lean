import WireIdl.Proofs.Wire.Reader
import WireIdl.Wire.Skip

/-! Reading input that is still arriving. No reader looks behind the bytes it takes, so unless it
runs out of input it does the same when more bytes follow. -/

namespace WireIdl

variable {α β σ : Type}

/-- A source with more bytes behind its own. -/
def Source.extend (source : Source) (more : Bytes) : Source :=
  { source with unread := source.unread ++ more }

namespace Reader

/-- What may become of an outcome when more bytes follow. -/
inductive Prolongs (more : Bytes) :
    EStateM.Result Fault Source α → EStateM.Result Fault Source α → Prop where
  | ok (a : α) (rest : Source) : Prolongs more (.ok a rest) (.ok a (rest.extend more))
  | failed (fault : Fault) (left : Source) :
      Prolongs more (.error fault left) (.error fault (left.extend more))
  /-- Only a reader that ran out of input may go on in another way. -/
  | cut (left : Source) (other : EStateM.Result Fault Source α) :
      Prolongs more (.error .unexpectedEof left) other

/-- The second reader does with more input what the first does with less. The two differ only in
how many fields of a struct they are ready to read. -/
def Streams (reader longer : Reader α) : Prop :=
  ∀ source more, Prolongs more (reader source) (longer (source.extend more))

theorem streams_pure (a : α) : Streams (pure a) (pure a) :=
  fun source _ => .ok a source

theorem streams_throw (fault : Fault) : Streams (throw fault : Reader α) (throw fault) :=
  fun source _ => .failed fault source

theorem Streams.bind {x y : Reader α} {f g : α → Reader β} (hx : Streams x y)
    (hnext : ∀ a, Streams (f a) (g a)) : Streams (x >>= f) (y >>= g) := by
  intro source more
  change Prolongs more (EStateM.bind x f source) (EStateM.bind y g (source.extend more))
  rw [EStateM.bind, EStateM.bind]
  have hsource := hx source more
  generalize x source = before at hsource
  generalize y (source.extend more) = after at hsource
  cases hsource with
  | ok a rest => exact hnext a rest more
  | failed fault left => exact .failed fault left
  | cut left other => exact .cut left _

theorem streams_take (count : Nat) : Streams (take count) (take count) := by
  intro source more
  by_cases hcount : count ≤ source.unread.length
  · have htake : (source.unread ++ more).take count = source.unread.take count :=
      List.take_append_of_le_length hcount
    have hdrop : (source.unread ++ more).drop count = source.unread.drop count ++ more :=
      List.drop_append_of_le_length hcount
    have hlength : (source.unread.take count).length = count := List.length_take_of_le hcount
    simp only [take, Source.extend, htake, hdrop, hlength, if_true]
    exact .ok _ _
  · have hlength : (source.unread.take count).length ≠ count := by
      rw [List.length_take]
      omega
    simp only [take, if_neg hlength]
    exact .cut _ _

theorem streams_rawByte : Streams rawByte rawByte := by
  intro source more
  rcases source with ⟨unread, frames⟩
  cases unread with
  | nil => exact .cut _ _
  | cons b unread => exact .ok b ⟨unread, frames⟩

theorem streams_i16 : Streams i16 i16 :=
  (streams_take 2).bind fun _ => streams_pure _

theorem streams_i32 : Streams i32 i32 :=
  (streams_take 4).bind fun _ => streams_pure _

theorem streams_i64 : Streams i64 i64 :=
  (streams_take 8).bind fun _ => streams_pure _

theorem streams_double : Streams double double :=
  (streams_take 8).bind fun _ => streams_pure _

theorem streams_size : Streams size size := by
  apply streams_i32.bind
  intro size
  split
  · exact streams_throw _
  · exact streams_pure _

theorem streams_binary : Streams binary binary :=
  streams_size.bind streams_take

theorem streams_string : Streams string string := by
  apply streams_binary.bind
  intro bytes
  rw [decoded]
  split
  · exact streams_pure _
  · exact streams_throw _

theorem streams_fieldHeader : Streams fieldHeader fieldHeader := by
  apply streams_rawByte.bind
  intro tag
  split
  · exact streams_pure _
  · exact streams_i16.bind fun _ => streams_pure _

theorem streams_itemsHeader : Streams itemsHeader itemsHeader :=
  streams_rawByte.bind fun _ => streams_size.bind fun _ => streams_pure _

theorem streams_entriesHeader : Streams entriesHeader entriesHeader :=
  streams_rawByte.bind fun _ => streams_rawByte.bind fun _ =>
    streams_size.bind fun _ => streams_pure _

theorem streams_openFrame : Streams openFrame openFrame := by
  intro source more
  by_cases hframes : source.frames < maxFrames
  · have hlonger : (source.extend more).frames < maxFrames := hframes
    rw [openFrame_of_lt hframes, openFrame_of_lt hlonger]
    exact .ok () { source with frames := source.frames + 1 }
  · have hlonger : maxFrames ≤ (source.extend more).frames := Nat.not_lt.mp hframes
    rw [openFrame_of_le (Nat.not_lt.mp hframes), openFrame_of_le hlonger]
    exact .failed _ source

theorem streams_closeFrame : Streams closeFrame closeFrame :=
  fun source _ => .ok () { source with frames := source.frames - 1 }

section Loops

variable {item : Reader α} {field : FieldHeader → σ → Reader σ}

theorem streams_discard (hitem : Streams item item) : Streams (discard item) (discard item) :=
  hitem.bind fun _ => streams_pure ()

theorem streams_collect (hitem : Streams item item) (count : Nat) :
    Streams (collect item count) (collect item count) := by
  induction count with
  | zero => exact streams_pure []
  | succ count ih => exact hitem.bind fun _ => ih.bind fun _ => streams_pure _

theorem streams_times {item : Reader Unit} (hitem : Streams item item) (count : Nat) :
    Streams (times item count) (times item count) := by
  induction count with
  | zero => exact streams_pure ()
  | succ count ih => exact hitem.bind fun _ => ih

theorem streams_fields (hfield : ∀ header state, Streams (field header state) (field header state))
    {steps larger : Nat} (hsteps : steps ≤ larger) (state : σ) :
    Streams (fields field steps state) (fields field larger state) := by
  induction steps generalizing larger state with
  | zero => exact fun source _ => .cut source _
  | succ steps ih =>
      obtain ⟨larger, rfl⟩ := Nat.exists_eq_add_of_le' (Nat.le_of_add_left_le hsteps)
      apply streams_fieldHeader.bind
      intro header
      split
      · exact streams_pure state
      · exact (hfield header state).bind fun next => ih (Nat.le_of_succ_le_succ hsteps) next

theorem streams_frame (hfield : ∀ header state, Streams (field header state) (field header state))
    (start : σ) : Streams (frame field start) (frame field start) := by
  apply streams_openFrame.bind
  intro _ source more
  -- The number of steps is read off the source, and more bytes only make it larger.
  have hsteps : source.unread.length ≤ (source.extend more).unread.length := by
    simp [Source.extend]
  have hbody := (streams_fields hfield hsteps start).bind fun state =>
    streams_closeFrame.bind fun _ => streams_pure state
  exact hbody source more

end Loops

theorem streams_skipWithin (levels : Nat) (tag : Tag) :
    Streams (skipWithin levels tag) (skipWithin levels tag) := by
  induction levels generalizing tag with
  | zero => exact streams_throw _
  | succ levels ih =>
      rw [skipWithin]
      cases WireType.ofTag? tag with
      | none => exact streams_throw _
      | some type =>
          cases type with
          | bool | byte => exact streams_discard streams_rawByte
          | i16 => exact streams_discard streams_i16
          | i32 | enum => exact streams_discard streams_i32
          | i64 => exact streams_discard streams_i64
          | double => exact streams_discard streams_double
          | string => exact streams_discard streams_binary
          | struct => exact streams_frame (fun header _ => ih header.tag) ()
          | list | set =>
              exact streams_itemsHeader.bind fun header =>
                streams_times (ih header.element) header.size
          | map =>
              exact streams_entriesHeader.bind fun header =>
                streams_times ((ih header.key).bind fun _ => ih header.value) header.size

/-- A reader for input that arrives in pieces: an outcome other than the end of input is final, and
what it takes can not be cut short. -/
structure Incremental (reader : Reader α) : Prop where
  ok : ∀ {bytes more : Bytes} {frames : Nat} {a : α} {rest : Source},
    reader ⟨bytes, frames⟩ = .ok a rest →
      reader ⟨bytes ++ more, frames⟩ = .ok a ⟨rest.unread ++ more, rest.frames⟩
  error : ∀ {bytes more : Bytes} {frames : Nat} {fault : Fault} {left : Source},
    reader ⟨bytes, frames⟩ = .error fault left → fault ≠ .unexpectedEof →
      reader ⟨bytes ++ more, frames⟩ = .error fault ⟨left.unread ++ more, left.frames⟩
  cut : ∀ {first second : Bytes} {frames : Nat} {a : α} {rest : Source},
    reader ⟨first ++ second, frames⟩ = .ok a rest → rest.unread.length < second.length →
      ∃ left, reader ⟨first, frames⟩ = .error .unexpectedEof left

theorem Streams.incremental {reader : Reader α} (h : Streams reader reader) :
    reader.Incremental where
  ok := by
    intro bytes more frames a rest hread
    have hmore := h ⟨bytes, frames⟩ more
    rw [hread] at hmore
    generalize hlonger : reader (Source.extend ⟨bytes, frames⟩ more) = longer at hmore
    cases hmore with
    | ok => exact hlonger
  error := by
    intro bytes more frames fault left hread hfault
    have hmore := h ⟨bytes, frames⟩ more
    rw [hread] at hmore
    generalize hlonger : reader (Source.extend ⟨bytes, frames⟩ more) = longer at hmore
    cases hmore with
    | failed => exact hlonger
    | cut => exact absurd rfl hfault
  cut := by
    intro first second frames a rest hread hlength
    have hmore := h ⟨first, frames⟩ second
    have hwhole : reader (Source.extend ⟨first, frames⟩ second) = .ok a rest := hread
    rw [hwhole] at hmore
    generalize reader ⟨first, frames⟩ = shorter at hmore ⊢
    cases hmore with
    | ok a rest =>
        -- A success would have left all that follows unread.
        rw [Source.extend, List.length_append] at hlength
        omega
    | cut left => exact ⟨left, rfl⟩

end Reader

end WireIdl
