import WireIdl.Proofs.Wire.Composed

/-! The sizes that containers declare. Readers are run here together with a list of the headers they
accept. A value takes at least one byte, so a container that was read to its end took at least as
many bytes behind its header as it declared parts. -/

namespace WireIdl

variable {α β σ : Type}

/-- A header that was accepted: the number of parts it declares, and the bytes behind it. -/
structure Note where
  size : Nat
  unread : Bytes

namespace Note

/-- The declared size stands among the bytes, right before those behind the header. -/
def StandsIn (note : Note) (bytes : Bytes) : Prop :=
  note.size < 2 ^ 31 ∧
    ∃ front, bytes = front ++ Bytes.ofI32 (Int32.ofNat note.size) ++ note.unread

/-- The bytes from the header to what is left are as many as the declared parts, or more. -/
def FilledBefore (note : Note) (rest : Bytes) : Prop :=
  ∃ filled, note.unread = filled ++ rest ∧ note.size ≤ filled.length

theorem StandsIn.append {note : Note} {bytes : Bytes} (h : note.StandsIn bytes) (front : Bytes) :
    note.StandsIn (front ++ bytes) := by
  obtain ⟨hsize, middle, rfl⟩ := h
  exact ⟨hsize, front ++ middle, by simp only [List.append_assoc]⟩

theorem FilledBefore.append {note : Note} {bytes rest : Bytes}
    (h : note.FilledBefore (bytes ++ rest)) : note.FilledBefore rest := by
  obtain ⟨filled, hunread, hsize⟩ := h
  refine ⟨filled ++ bytes, ?_, ?_⟩
  · rw [hunread, List.append_assoc]
  · rw [List.length_append]
    exact Nat.le_add_right_of_le hsize

theorem FilledBefore.size_le {note : Note} {rest : Bytes} (h : note.FilledBefore rest) :
    note.size ≤ note.unread.length := by
  obtain ⟨filled, hunread, hsize⟩ := h
  rw [hunread, List.length_append]
  exact Nat.le_add_right_of_le hsize

end Note

/-- A reader that also gives the headers it accepted, whether it succeeds or fails. -/
def Noting (α : Type) : Type :=
  Source → EStateM.Result Fault Source α × List Note

namespace Noting

/-- The reader without the headers. -/
def reader (x : Noting α) : Reader α := fun source => (x source).1

def notes (x : Noting α) (source : Source) : List Note := (x source).2

/-- A reader that meets no header of a container. -/
def quiet (item : Reader α) : Noting α := fun source => (item source, [])

/-- The header of a container. -/
def header (item : Reader α) (size : α → Nat) : Noting α := fun source =>
  match item source with
  | .ok a rest => (.ok a rest, [⟨size a, rest.unread⟩])
  | .error fault rest => (.error fault rest, [])

instance : Monad Noting where
  pure a := quiet (pure a)
  bind x f := fun source =>
    match x source with
    | (.ok a rest, notes) => ((f a rest).1, notes ++ (f a rest).2)
    | (.error fault rest, notes) => (.error fault rest, notes)

def collect (item : Noting α) : Nat → Noting (List α)
  | 0 => pure []
  | count + 1 => do
      let first ← item
      return first :: (← collect item count)

def times (item : Noting Unit) : Nat → Noting Unit
  | 0 => pure ()
  | count + 1 => do
      item
      times item count

def fields (field : Reader.FieldHeader → σ → Noting σ) : Nat → σ → Noting σ
  | 0, _ => quiet (throw .unexpectedEof)
  | bytes + 1, state => do
      let header ← quiet Reader.fieldHeader
      if header.tag = Tag.stop then return state
      fields field bytes (← field header state)

def frame (field : Reader.FieldHeader → σ → Noting σ) (start : σ) : Noting σ := do
  quiet Reader.openFrame
  let source ← quiet get
  let state ← fields field source.unread.length start
  quiet Reader.closeFrame
  return state

def skipWithin : Nat → Tag → Noting Unit
  | 0, tag => quiet (Reader.skipWithin 0 tag)
  | levels + 1, tag =>
      match WireType.ofTag? tag with
      | some .struct => frame (fun header _ => skipWithin levels header.tag) ()
      | some .list | some .set => do
          let header ← header Reader.itemsHeader (·.size)
          times (skipWithin levels header.element) header.size
      | some .map => do
          let header ← header Reader.entriesHeader (·.size)
          times (do skipWithin levels header.key; skipWithin levels header.value) header.size
      | _ => quiet (Reader.skipWithin (levels + 1) tag)

def skip (tag : Tag) : Noting Unit :=
  skipWithin maxFrames tag

/-! Noting changes nothing in what is read. -/

section Erasure

@[simp] theorem reader_quiet (item : Reader α) : (quiet item).reader = item := rfl

@[simp] theorem reader_pure (a : α) : (pure a : Noting α).reader = pure a := rfl

@[simp] theorem reader_header (item : Reader α) (size : α → Nat) :
    (header item size).reader = item := by
  funext source
  rw [reader, header]
  cases item source <;> rfl

@[simp] theorem reader_bind (x : Noting α) (f : α → Noting β) :
    (x >>= f).reader = x.reader >>= fun a => (f a).reader := by
  funext source
  change _ = EStateM.bind x.reader (fun a => (f a).reader) source
  simp only [reader, bind, EStateM.bind]
  rcases x source with ⟨_ | _, _⟩ <;> rfl

theorem reader_collect (item : Noting α) (count : Nat) :
    (collect item count).reader = Reader.collect item.reader count := by
  induction count with
  | zero => rfl
  | succ count ih => simp only [collect, Reader.collect, reader_bind, reader_pure, ih]

theorem reader_times (item : Noting Unit) (count : Nat) :
    (times item count).reader = Reader.times item.reader count := by
  induction count with
  | zero => rfl
  | succ count ih => simp only [times, Reader.times, reader_bind, ih]

theorem reader_fields (field : Reader.FieldHeader → σ → Noting σ) (steps : Nat) (state : σ) :
    (fields field steps state).reader =
      Reader.fields (fun header state => (field header state).reader) steps state := by
  induction steps generalizing state with
  | zero => rfl
  | succ steps ih =>
      rw [fields, Reader.fields, reader_bind, reader_quiet]
      congr 1
      funext header
      split
      · rfl
      · rw [reader_bind]
        exact congrArg _ (funext ih)

theorem reader_frame (field : Reader.FieldHeader → σ → Noting σ) (start : σ) :
    (frame field start).reader =
      Reader.frame (fun header state => (field header state).reader) start := by
  simp only [frame, Reader.frame, reader_bind, reader_quiet, reader_pure, reader_fields]

theorem reader_skipWithin (levels : Nat) (tag : Tag) :
    (skipWithin levels tag).reader = Reader.skipWithin levels tag := by
  induction levels generalizing tag with
  | zero => rfl
  | succ levels ih =>
      rw [skipWithin]
      split
      case h_1 htype => simp only [Reader.skipWithin, htype, reader_frame, ih]
      case h_2 htype | h_3 htype | h_4 htype =>
          simp only [Reader.skipWithin, htype, reader_bind, reader_header, reader_times, ih]
      case h_5 => rfl

end Erasure

end Noting

/-- A success takes a number of bytes that is related to what it gives. -/
def Reader.Takes (item : Reader α) (p : Nat → α → Prop) : Prop :=
  ∀ source a rest, item source = .ok a rest →
    ∃ bytes, source.unread = bytes ++ rest.unread ∧ p bytes.length a

namespace Reader

theorem takes_throw (fault : Fault) {p : Nat → α → Prop} : Takes (throw fault) p := by
  intro source a rest h
  cases h

theorem takes_rawByte : Takes rawByte fun bytes _ => 1 ≤ bytes := by
  intro source b rest h
  rw [rawByte_eq_ok.mp h]
  exact ⟨[b], rfl, Nat.le_refl 1⟩

theorem takes_take {count : Nat} (hcount : 1 ≤ count) :
    Takes (take count) fun bytes _ => 1 ≤ bytes := by
  intro source taken rest h
  obtain ⟨rfl, rfl⟩ := take_eq_ok.mp h
  exact ⟨taken, rfl, hcount⟩

/-- What a reader takes first is taken whatever comes then. -/
theorem Takes.bind {x : Reader α} {f : α → Reader β} (hx : Takes x fun bytes _ => 1 ≤ bytes)
    (hf : ∀ a, Composed (f a)) : Takes (x >>= f) fun bytes _ => 1 ≤ bytes := by
  intro source b rest h
  obtain ⟨a, middle, hfirst, hnext⟩ := bind_eq_ok.mp h
  obtain ⟨bytes, hbytes, hlength⟩ := hx source a middle hfirst
  have hadvances := (hf a).steady middle
  rw [left_of_ok hnext] at hadvances
  obtain ⟨more, hmore⟩ := hadvances.unread
  refine ⟨bytes ++ more, ?_, ?_⟩
  · rw [hbytes, ← hmore, List.append_assoc]
  · rw [List.length_append]
    exact Nat.le_add_right_of_le hlength

theorem Takes.map {x : Reader α} (hx : Takes x fun bytes _ => 1 ≤ bytes) (f : α → β) :
    Takes (x >>= fun a => pure (f a)) fun bytes _ => 1 ≤ bytes :=
  hx.bind fun a => .pure (f a)

theorem takes_openFrame : Takes openFrame fun bytes _ => bytes = 0 := by
  intro source a rest h
  rw [openFrame] at h
  split at h
  · cases h
  · cases h
    exact ⟨[], rfl, rfl⟩

theorem takes_closeFrame : Takes closeFrame fun bytes _ => bytes = 0 := by
  intro source a rest h
  cases h
  exact ⟨[], rfl, rfl⟩

theorem takes_get : Takes get fun bytes _ => bytes = 0 := by
  intro source a rest h
  cases h
  exact ⟨[], rfl, rfl⟩

theorem takes_i16 : Takes i16 fun bytes _ => 1 ≤ bytes :=
  (takes_take (by decide : 1 ≤ 2)).map _

theorem takes_i32 : Takes i32 fun bytes _ => 1 ≤ bytes :=
  (takes_take (by decide : 1 ≤ 4)).map _

theorem takes_i64 : Takes i64 fun bytes _ => 1 ≤ bytes :=
  (takes_take (by decide : 1 ≤ 8)).map _

theorem takes_double : Takes double fun bytes _ => 1 ≤ bytes :=
  (takes_take (by decide : 1 ≤ 8)).map _

theorem takes_binary : Takes binary fun bytes _ => 1 ≤ bytes := by
  refine Takes.bind (takes_i32.bind fun size => ?_) .take
  split
  · exact .throw _
  · exact .pure _

theorem takes_fieldHeader :
    Takes fieldHeader fun bytes header => 1 ≤ bytes ∧ (header.tag ≠ Tag.stop → 3 ≤ bytes) := by
  intro source header rest h
  obtain ⟨rfl, rfl⟩ | ⟨_, rfl⟩ := fieldHeader_eq_ok.mp h
  · exact ⟨Encoding.fieldStop, rfl, Nat.le_refl 1, fun hstop => absurd rfl hstop⟩
  · refine ⟨Encoding.fieldHeader header.id header.tag, rfl, ?_⟩
    have hlength : (Encoding.fieldHeader header.id header.tag).length = 3 := by
      rw [Encoding.fieldHeader, List.length_cons, Bytes.length_ofI16]
    omega

end Reader

namespace Noting

/-- The headers stand in the source; and a success takes a number of bytes that is related to what
it gives, and has filled every container whose header it accepted. -/
structure Spends (x : Noting α) (p : Nat → α → Prop) : Prop where
  stands : ∀ source, ∀ note ∈ x.notes source, note.StandsIn source.unread
  spends : ∀ {source a rest}, x.reader source = .ok a rest →
    ∃ bytes, source.unread = bytes ++ rest.unread ∧ p bytes.length a ∧
      ∀ note ∈ x.notes source, note.FilledBefore rest.unread

section Spends

variable {x : Noting α} {f : α → Noting β} {p : Nat → α → Prop} {q : Nat → β → Prop}

theorem notes_bind_of_ok {source middle : Source} {a : α} (h : x.reader source = .ok a middle) :
    (x >>= f).notes source = x.notes source ++ (f a).notes middle := by
  simp only [reader] at h
  simp only [notes, bind]
  rw [← Prod.eta (x source), h]

theorem notes_bind_of_error {source middle : Source} {fault : Fault}
    (h : x.reader source = .error fault middle) : (x >>= f).notes source = x.notes source := by
  simp only [reader] at h
  simp only [notes, bind]
  rw [← Prod.eta (x source), h]

theorem notes_container_of_ok {item : Reader α} {size : α → Nat} {source rest : Source} {a : α}
    (h : item source = .ok a rest) :
    (header item size >>= f).notes source = ⟨size a, rest.unread⟩ :: (f a).notes rest := by
  simp only [notes, bind, header, h, List.singleton_append]

theorem notes_container_of_error {item : Reader α} {size : α → Nat} {source rest : Source}
    {fault : Fault} (h : item source = .error fault rest) :
    (header item size >>= f).notes source = [] := by
  simp only [notes, bind, header, h]

theorem Spends.imp {r : Nat → α → Prop} (h : Spends x p) (himp : ∀ bytes a, p bytes a → r bytes a) :
    Spends x r := by
  refine ⟨h.stands, fun hread => ?_⟩
  obtain ⟨bytes, hbytes, hp, hnotes⟩ := h.spends hread
  exact ⟨bytes, hbytes, himp _ _ hp, hnotes⟩

theorem spends_quiet {item : Reader α} (h : item.Takes p) : Spends (quiet item) p := by
  refine ⟨fun _ _ hmem => absurd hmem List.not_mem_nil, fun hread => ?_⟩
  obtain ⟨bytes, hbytes, hp⟩ := h _ _ _ hread
  exact ⟨bytes, hbytes, hp, fun _ hmem => absurd hmem List.not_mem_nil⟩

theorem spends_pure {a : α} (h : p 0 a) : Spends (pure a) p := by
  apply spends_quiet
  intro source b rest hread
  cases hread
  exact ⟨[], rfl, h⟩

theorem Spends.bind (hx : Spends x p)
    (hf : ∀ bytes a, p bytes a → Spends (f a) fun more b => q (bytes + more) b) :
    Spends (x >>= f) q := by
  constructor
  · intro source note hmem
    cases hsource : x.reader source with
    | error fault rest =>
        rw [notes_bind_of_error hsource] at hmem
        exact hx.stands source note hmem
    | ok a middle =>
        obtain ⟨bytes, hbytes, hp, _⟩ := hx.spends hsource
        rw [notes_bind_of_ok hsource, List.mem_append] at hmem
        rcases hmem with hmem | hmem
        · exact hx.stands source note hmem
        · rw [hbytes]
          exact ((hf _ a hp).stands middle note hmem).append bytes
  · intro source b rest hread
    rw [reader_bind] at hread
    obtain ⟨a, middle, hfirst, hnext⟩ := Reader.bind_eq_ok.mp hread
    obtain ⟨bytes, hbytes, hp, hnotes⟩ := hx.spends hfirst
    obtain ⟨more, hmore, hq, hmoreNotes⟩ := (hf _ a hp).spends hnext
    refine ⟨bytes ++ more, ?_, ?_, ?_⟩
    · rw [hbytes, hmore, List.append_assoc]
    · rw [List.length_append]
      exact hq
    · rw [notes_bind_of_ok hfirst, List.forall_mem_append]
      refine ⟨fun note hmem => ?_, hmoreNotes⟩
      have hfilled := hnotes note hmem
      rw [hmore] at hfilled
      exact hfilled.append

/-- The rule for containers: what comes behind the header takes as many bytes as the header declares
parts, or more. -/
theorem Spends.container {item : Reader α} {size : α → Nat}
    (hitem : ∀ {source a rest}, item source = .ok a rest → size a < 2 ^ 31 ∧
      ∃ tags, source.unread = tags ++ Bytes.ofI32 (Int32.ofNat (size a)) ++ rest.unread)
    (hbody : ∀ a, Spends (f a) fun bytes b =>
      size a ≤ bytes ∧ ∀ more, 4 ≤ more → q (more + bytes) b) :
    Spends (header item size >>= f) q := by
  constructor
  · intro source note hmem
    cases hsource : item source with
    | error fault rest =>
        rw [notes_container_of_error hsource] at hmem
        cases hmem
    | ok a middle =>
        obtain ⟨hsize, tags, hunread⟩ := hitem hsource
        rw [notes_container_of_ok hsource, List.mem_cons] at hmem
        rcases hmem with rfl | hmem
        · exact ⟨hsize, tags, hunread⟩
        · rw [hunread]
          exact ((hbody a).stands middle note hmem).append _
  · intro source b rest hread
    rw [reader_bind, reader_header] at hread
    obtain ⟨a, middle, hfirst, hnext⟩ := Reader.bind_eq_ok.mp hread
    obtain ⟨_, tags, hunread⟩ := hitem hfirst
    obtain ⟨filled, hfilled, ⟨hsize, hq⟩, hnotes⟩ := (hbody a).spends hnext
    refine ⟨tags ++ Bytes.ofI32 (Int32.ofNat (size a)) ++ filled, ?_, ?_, ?_⟩
    · rw [hunread, hfilled, List.append_assoc _ filled]
    · rw [List.length_append]
      apply hq
      rw [List.length_append, Bytes.length_ofI32]
      exact Nat.le_add_left 4 _
    · rw [notes_container_of_ok hfirst, List.forall_mem_cons]
      exact ⟨⟨filled, hfilled, hsize⟩, hnotes⟩

theorem Spends.items {f : Reader.ItemsHeader → Noting β}
    (hbody : ∀ header, Spends (f header) fun bytes b =>
      header.size ≤ bytes ∧ ∀ more, 4 ≤ more → q (more + bytes) b) :
    Spends (header Reader.itemsHeader (·.size) >>= f) q := by
  refine .container (fun {source a rest} hread => ?_) hbody
  obtain ⟨hsize, rfl⟩ := Reader.itemsHeader_eq_ok.mp hread
  exact ⟨hsize, [a.element], rfl⟩

theorem Spends.entries {f : Reader.EntriesHeader → Noting β}
    (hbody : ∀ header, Spends (f header) fun bytes b =>
      header.size ≤ bytes ∧ ∀ more, 4 ≤ more → q (more + bytes) b) :
    Spends (header Reader.entriesHeader (·.size) >>= f) q := by
  refine .container (fun {source a rest} hread => ?_) hbody
  obtain ⟨hsize, rfl⟩ := Reader.entriesHeader_eq_ok.mp hread
  exact ⟨hsize, [a.key, a.value], rfl⟩

theorem Spends.times {item : Noting Unit} (h : Spends item fun bytes _ => 1 ≤ bytes)
    (count : Nat) : Spends (times item count) fun bytes _ => count ≤ bytes := by
  induction count with
  | zero => exact spends_pure (Nat.le_refl 0)
  | succ count ih =>
      apply h.bind
      intro bytes _ hbytes
      exact ih.imp fun more _ hmore => by omega

/-- Items are collected with what holds of their bytes, as long as it holds of no items and of one
item more. -/
theorem Spends.collect {item : Noting α} {q : Nat → List α → Prop} (h : Spends item p)
    (hnil : q 0 []) (hcons : ∀ bytes a more as, p bytes a → q more as → q (bytes + more) (a :: as))
    (count : Nat) : Spends (collect item count) fun bytes as => as.length = count ∧ q bytes as := by
  induction count with
  | zero => exact spends_pure ⟨rfl, hnil⟩
  | succ count ih =>
      apply h.bind
      intro bytes a ha
      apply ih.bind
      intro more as has
      exact spends_pure ⟨congrArg (· + 1) has.1, hcons bytes a more as ha has.2⟩

/-- A field takes three bytes for its header, and these may pay for what the field does not. -/
theorem spends_fields {field : Reader.FieldHeader → σ → Noting σ} (potential : σ → Nat)
    (h : ∀ header state, Spends (field header state) fun bytes next =>
      potential next ≤ potential state + bytes + 3) (steps : Nat) (state : σ) :
    Spends (fields field steps state) fun bytes final =>
      potential final + 1 ≤ potential state + bytes := by
  induction steps generalizing state with
  | zero => exact spends_quiet (Reader.takes_throw _)
  | succ steps ih =>
      apply (spends_quiet Reader.takes_fieldHeader).bind
      intro bytes header hheader
      split
      · exact spends_pure (Nat.add_le_add_left hheader.1 _)
      · next hstop =>
          have hthree := hheader.2 hstop
          apply (h header state).bind
          intro more next hnext
          exact (ih next).imp fun last final hfinal => by omega

theorem spends_frame {field : Reader.FieldHeader → σ → Noting σ} (potential : σ → Nat)
    (h : ∀ header state, Spends (field header state) fun bytes next =>
      potential next ≤ potential state + bytes + 3) (start : σ) :
    Spends (frame field start) fun bytes final =>
      potential final + 1 ≤ potential start + bytes := by
  apply (spends_quiet Reader.takes_openFrame).bind
  rintro _ _ rfl
  apply (spends_quiet Reader.takes_get).bind
  rintro _ source rfl
  apply (spends_fields potential h source.unread.length start).bind
  intro bytes final hfinal
  apply (spends_quiet Reader.takes_closeFrame).bind
  rintro _ _ rfl
  exact spends_pure (by omega)

end Spends

theorem spends_skipWithin (levels : Nat) (tag : Tag) :
    Spends (skipWithin levels tag) fun bytes _ => 1 ≤ bytes := by
  induction levels generalizing tag with
  | zero => exact spends_quiet (Reader.takes_throw _)
  | succ levels ih =>
      simp only [skipWithin, Reader.skipWithin]
      cases WireType.ofTag? tag with
      | none => exact spends_quiet (Reader.takes_throw _)
      | some type =>
          cases type with
          | bool | byte => exact spends_quiet (Reader.takes_rawByte.map _)
          | i16 => exact spends_quiet (Reader.takes_i16.map _)
          | i32 | enum => exact spends_quiet (Reader.takes_i32.map _)
          | i64 => exact spends_quiet (Reader.takes_i64.map _)
          | double => exact spends_quiet (Reader.takes_double.map _)
          | string => exact spends_quiet (Reader.takes_binary.map _)
          | struct =>
              refine (spends_frame (fun _ => 0) (fun header _ => ?_) ()).imp ?_
              · exact (ih header.tag).imp fun _ _ _ => Nat.zero_le _
              · intro bytes _ hbytes
                omega
          | list | set =>
              apply Spends.items
              intro header
              refine ((ih header.element).times header.size).imp fun bytes _ hbytes => ?_
              exact ⟨hbytes, fun more hmore => by omega⟩
          | map =>
              apply Spends.entries
              intro header
              have hentry : Spends (skipWithin levels header.key >>= fun _ =>
                  skipWithin levels header.value) fun bytes _ => 1 ≤ bytes := by
                apply (ih header.key).bind
                intro bytes _ hbytes
                exact (ih header.value).imp fun _ _ _ => Nat.le_add_right_of_le hbytes
              refine (hentry.times header.size).imp fun bytes _ hbytes => ?_
              exact ⟨hbytes, fun more hmore => by omega⟩

/-- What the declared sizes say about a reading. The reader is the one without notes; the headers it
accepts stand in the source; a success has taken a byte at least, as many bytes as it counts parts,
and behind every header as many as were declared; so it fails if a header declares more than there
are bytes behind it. -/
structure Bounds (x : Noting α) (item : Reader α) (parts : α → Nat) (source : Source) : Prop where
  same : x.reader source = item source
  stands : ∀ note ∈ x.notes source, note.StandsIn source.unread
  taken : ∀ a rest, item source = .ok a rest →
    ∃ bytes, source.unread = bytes ++ rest.unread ∧ 1 ≤ bytes.length ∧ parts a ≤ bytes.length ∧
      ∀ note ∈ x.notes source, note.FilledBefore rest.unread
  refused : ∀ note ∈ x.notes source, note.unread.length < note.size →
    ∃ fault rest, item source = .error fault rest

theorem Spends.bounds {x : Noting α} {item : Reader α} {parts : α → Nat}
    (h : Spends x fun bytes a => 1 ≤ bytes ∧ parts a ≤ bytes) (hsame : x.reader = item)
    (source : Source) : x.Bounds item parts source := by
  subst hsame
  refine ⟨rfl, h.stands source, fun a rest hread => ?_, fun note hmem hless => ?_⟩
  · obtain ⟨bytes, hbytes, ⟨hone, hparts⟩, hnotes⟩ := h.spends hread
    exact ⟨bytes, hbytes, hone, hparts, hnotes⟩
  · cases hread : x.reader source with
    | error fault rest => exact ⟨fault, rest, rfl⟩
    | ok a rest =>
        obtain ⟨_, _, _, hnotes⟩ := h.spends hread
        exact absurd (hnotes note hmem).size_le (Nat.not_le.mpr hless)

end Noting

end WireIdl
