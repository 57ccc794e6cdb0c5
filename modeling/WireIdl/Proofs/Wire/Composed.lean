import WireIdl.Proofs.Wire.Skip

/-! Readers that are put together from a few elementary ones. Whatever they meet, they only take
bytes from the front of their source and keep to the limit on open frames; and when they succeed,
they have closed the frames they opened. -/

namespace WireIdl

variable {α β σ : Type}

/-- What reading may make of a source. -/
structure Source.Advances (source rest : Source) : Prop where
  unread : rest.unread <:+ source.unread
  frames : source.frames ≤ maxFrames → rest.frames ≤ maxFrames

namespace Source.Advances

theorem refl (source : Source) : source.Advances source where
  unread := List.suffix_rfl
  frames := id

theorem trans {source middle rest : Source} (h : source.Advances middle)
    (h' : middle.Advances rest) : source.Advances rest where
  unread := h'.unread.trans h.unread
  frames := fun hframes => h'.frames (h.frames hframes)

end Source.Advances

namespace Reader

/-- What a reader leaves of a source, whether it succeeds or fails. -/
def left (reader : Reader α) (source : Source) : Source :=
  match reader source with
  | .ok _ rest | .error _ rest => rest

theorem left_of_ok {reader : Reader α} {source rest : Source} {a : α}
    (h : reader source = .ok a rest) : reader.left source = rest := by
  rw [left, h]

theorem left_of_error {reader : Reader α} {source rest : Source} {fault : Fault}
    (h : reader source = .error fault rest) : reader.left source = rest := by
  rw [left, h]

theorem bind_of_error {reader : Reader α} {f : α → Reader β} {source rest : Source}
    {fault : Fault} (h : reader source = .error fault rest) :
    (reader >>= f) source = .error fault rest := by
  change EStateM.bind reader f source = _
  rw [EStateM.bind, h]

def Steady (reader : Reader α) : Prop :=
  ∀ source : Source, source.Advances (reader.left source)

theorem steady_pure (a : α) : Steady (pure a) :=
  fun source => .refl source

theorem steady_throw (fault : Fault) : Steady (throw fault : Reader α) :=
  fun source => .refl source

theorem Steady.bind {x : Reader α} {f : α → Reader β} (hx : Steady x)
    (hnext : ∀ a, Steady (f a)) : Steady (x >>= f) := by
  intro source
  have hfirst := hx source
  cases hsource : x source with
  | ok a middle =>
      rw [left_of_ok hsource] at hfirst
      rw [left, bind_of_ok hsource]
      exact hfirst.trans (hnext a middle)
  | error fault rest =>
      rw [left_of_error hsource] at hfirst
      rw [left_of_error (bind_of_error hsource)]
      exact hfirst

theorem steady_take (count : Nat) : Steady (take count) := by
  intro source
  simp only [left, take]
  by_cases hlength : (source.unread.take count).length = count
  · rw [if_pos hlength]
    exact ⟨List.drop_suffix count source.unread, id⟩
  · rw [if_neg hlength]
    exact .refl source

theorem steady_rawByte : Steady rawByte := by
  intro source
  rcases source with ⟨unread, frames⟩
  cases unread with
  | nil => exact .refl _
  | cons b unread => exact ⟨List.suffix_cons b unread, id⟩

theorem steady_openFrame : Steady openFrame := by
  intro source
  by_cases hframes : source.frames < maxFrames
  · rw [left_of_ok (openFrame_of_lt hframes)]
    exact ⟨List.suffix_rfl, fun _ => hframes⟩
  · rw [left_of_error (openFrame_of_le (Nat.not_lt.mp hframes))]
    exact .refl source

theorem steady_closeFrame : Steady closeFrame :=
  fun source => ⟨List.suffix_rfl, fun hframes => Nat.le_trans (Nat.sub_le source.frames 1) hframes⟩

theorem steady_frame {field : FieldHeader → σ → Reader σ} {start : σ}
    (hbody : ∀ steps, Steady (fields field steps start)) : Steady (frame field start) := by
  apply steady_openFrame.bind
  intro _ source
  have hloop := (hbody source.unread.length).bind fun state =>
    steady_closeFrame.bind fun _ => steady_pure state
  exact hloop source

/-- With `frames` frames open, a success leaves as many of them open and gives what has the
property. -/
def Ensures (frames : Nat) (reader : Reader α) (p : α → Prop) : Prop :=
  ∀ unread a rest, reader ⟨unread, frames⟩ = .ok a rest → rest.frames = frames ∧ p a

section Ensures

variable {frames : Nat} {p : α → Prop} {q : β → Prop}

theorem ensures_pure {a : α} (h : p a) : Ensures frames (pure a) p := by
  intro unread b rest hread
  cases hread
  exact ⟨rfl, h⟩

theorem ensures_throw (fault : Fault) : Ensures frames (throw fault) p := by
  intro unread a rest hread
  cases hread

theorem Ensures.bind {x : Reader α} {f : α → Reader β} (hx : Ensures frames x p)
    (hnext : ∀ a, p a → Ensures frames (f a) q) : Ensures frames (x >>= f) q := by
  intro unread b rest hread
  obtain ⟨a, ⟨unread', frames'⟩, hfirst, hsecond⟩ := bind_eq_ok.mp hread
  obtain ⟨rfl, ha⟩ := hx unread a _ hfirst
  exact hnext a ha unread' b rest hsecond

theorem Ensures.imp {r : α → Prop} {reader : Reader α} (h : Ensures frames reader p)
    (himp : ∀ a, p a → r a) : Ensures frames reader r := by
  intro unread a rest hread
  obtain ⟨hframes, ha⟩ := h unread a rest hread
  exact ⟨hframes, himp a ha⟩

theorem Ensures.frame {field : FieldHeader → σ → Reader σ} {start : σ} {p : σ → Prop}
    (h : ∀ steps, Ensures (frames + 1) (fields field steps start) p) :
    Ensures frames (frame field start) fun final => frames < maxFrames ∧ p final := by
  intro unread final rest hread
  obtain ⟨hopen, inner, hfields, rfl⟩ := frame_eq_ok hread
  obtain ⟨hframes, hfinal⟩ := h _ _ _ _ hfields
  exact ⟨Nat.sub_eq_of_eq_add hframes, hopen, hfinal⟩

end Ensures

/-- The readers that are put together from pieces of input and from struct frames. -/
inductive Composed : {α : Type} → Reader α → Prop where
  | pure {α : Type} (a : α) : Composed (pure a : Reader α)
  | throw {α : Type} (fault : Fault) : Composed (throw fault : Reader α)
  | take (count : Nat) : Composed (take count)
  | rawByte : Composed rawByte
  | bind {α β : Type} {x : Reader α} {f : α → Reader β} (first : Composed x)
      (next : ∀ a, Composed (f a)) : Composed (x >>= f)
  | frame {σ : Type} {field : FieldHeader → σ → Reader σ} {start : σ}
      (body : ∀ steps, Composed (fields field steps start)) : Composed (frame field start)

theorem Composed.steady {reader : Reader α} (h : Composed reader) : Steady reader := by
  induction h with
  | pure a => exact steady_pure a
  | throw fault => exact steady_throw fault
  | take count => exact steady_take count
  | rawByte => exact steady_rawByte
  | bind _ _ ihFirst ihNext => exact ihFirst.bind ihNext
  | frame _ ih => exact steady_frame ih

/-- A success closes what it opened. -/
theorem Composed.balanced {reader : Reader α} (h : Composed reader) (frames : Nat) :
    Ensures frames reader fun _ => True := by
  induction h generalizing frames with
  | pure a => exact ensures_pure trivial
  | throw fault => exact ensures_throw fault
  | take count =>
      intro unread bytes rest hread
      obtain ⟨_, hsource⟩ := take_eq_ok.mp hread
      exact ⟨(congrArg Source.frames hsource).symm, trivial⟩
  | rawByte =>
      intro unread b rest hread
      exact ⟨(congrArg Source.frames (rawByte_eq_ok.mp hread)).symm, trivial⟩
  | bind _ _ ihFirst ihNext => exact (ihFirst frames).bind fun a _ => ihNext a frames
  | frame _ ih => exact (Ensures.frame fun steps => ih steps (frames + 1)).imp fun _ _ => trivial

theorem Composed.ensures {reader : Reader α} {p : α → Prop} (h : Composed reader) {frames : Nat}
    (hread : ∀ {source a rest}, reader source = .ok a rest → p a) : Ensures frames reader p := by
  intro unread a rest hok
  exact ⟨(h.balanced frames unread a rest hok).1, hread hok⟩

theorem Composed.map {reader : Reader α} (h : Composed reader) (f : α → β) :
    Composed (reader >>= fun a => Pure.pure (f a)) :=
  h.bind fun a => .pure (f a)

theorem composed_bool : Composed bool := Composed.rawByte.map _

theorem composed_i8 : Composed i8 := Composed.rawByte.map _

theorem composed_i16 : Composed i16 := (Composed.take 2).map _

theorem composed_i32 : Composed i32 := (Composed.take 4).map _

theorem composed_i64 : Composed i64 := (Composed.take 8).map _

theorem composed_double : Composed double := (Composed.take 8).map _

theorem composed_size : Composed size := by
  apply composed_i32.bind
  intro size
  split
  · exact .throw _
  · exact .pure _

theorem composed_binary : Composed binary :=
  composed_size.bind .take

theorem composed_decoded (bytes : Bytes) : Composed (decoded bytes) := by
  rw [decoded]
  split
  · exact .pure _
  · exact .throw _

theorem composed_string : Composed string :=
  composed_binary.bind composed_decoded

theorem composed_fieldHeader : Composed fieldHeader := by
  apply Composed.rawByte.bind
  intro tag
  split
  · exact .pure _
  · exact composed_i16.map _

theorem composed_itemsHeader : Composed itemsHeader :=
  Composed.rawByte.bind fun _ => composed_size.map _

theorem composed_entriesHeader : Composed entriesHeader :=
  Composed.rawByte.bind fun _ => Composed.rawByte.bind fun _ => composed_size.map _

section Loops

variable {item : Reader α} {field : FieldHeader → σ → Reader σ}

theorem Composed.discard (h : Composed item) : Composed (discard item) :=
  h.map _

theorem Composed.collect (h : Composed item) (count : Nat) : Composed (collect item count) := by
  induction count with
  | zero => exact .pure []
  | succ count ih => exact h.bind fun _ => ih.map _

theorem Composed.times {item : Reader Unit} (h : Composed item) (count : Nat) :
    Composed (times item count) := by
  induction count with
  | zero => exact .pure ()
  | succ count ih => exact h.bind fun _ => ih

theorem composed_fields (h : ∀ header state, Composed (field header state)) (steps : Nat)
    (state : σ) : Composed (fields field steps state) := by
  induction steps generalizing state with
  | zero => exact .throw _
  | succ steps ih =>
      apply composed_fieldHeader.bind
      intro header
      split
      · exact .pure state
      · exact (h header state).bind ih

theorem composed_frame (h : ∀ header state, Composed (field header state)) (start : σ) :
    Composed (frame field start) :=
  .frame fun steps => composed_fields h steps start

end Loops

section Ensures

variable {frames : Nat}

theorem ensures_binary : Ensures frames binary fun bytes => bytes.length < 2 ^ 31 :=
  composed_binary.ensures fun hread => (binary_eq_ok.mp hread).1

theorem ensures_itemsHeader : Ensures frames itemsHeader fun header => header.size < 2 ^ 31 :=
  composed_itemsHeader.ensures fun hread => (itemsHeader_eq_ok.mp hread).1

theorem ensures_entriesHeader : Ensures frames entriesHeader fun header => header.size < 2 ^ 31 :=
  composed_entriesHeader.ensures fun hread => (entriesHeader_eq_ok.mp hread).1

theorem ensures_string : Ensures frames string fun s => (Bytes.ofString s).length < 2 ^ 31 := by
  apply ensures_binary.bind
  intro bytes hlength
  rw [decoded]
  split
  · next s hs =>
      apply ensures_pure
      rw [Bytes.ofString_of_toString? hs]
      exact hlength
  · exact ensures_throw _

theorem Ensures.collect {item : Reader α} {p : α → Prop} (h : Ensures frames item p) (count : Nat) :
    Ensures frames (collect item count) fun items => items.length = count ∧ ∀ a ∈ items, p a := by
  induction count with
  | zero => exact ensures_pure ⟨rfl, fun a hmem => absurd hmem List.not_mem_nil⟩
  | succ count ih =>
      apply h.bind
      intro a ha
      apply ih.bind
      intro items hitems
      exact ensures_pure ⟨congrArg (· + 1) hitems.1, List.forall_mem_cons.mpr ⟨ha, hitems.2⟩⟩

theorem ensures_fields {field : FieldHeader → σ → Reader σ} {p : σ → Prop}
    (h : ∀ header state, p state → Ensures frames (field header state) p) (steps : Nat) {state : σ}
    (hstate : p state) : Ensures frames (fields field steps state) p := by
  induction steps generalizing state with
  | zero => exact ensures_throw _
  | succ steps ih =>
      apply (composed_fieldHeader.balanced frames).bind
      intro header _
      split
      · exact ensures_pure hstate
      · exact (h header state hstate).bind fun _ hnext => ih hnext

end Ensures

theorem composed_skipWithin (levels : Nat) (tag : Tag) : Composed (skipWithin levels tag) := by
  induction levels generalizing tag with
  | zero => exact .throw _
  | succ levels ih =>
      rw [skipWithin]
      cases WireType.ofTag? tag with
      | none => exact .throw _
      | some type =>
          cases type with
          | bool | byte => exact Composed.rawByte.discard
          | i16 => exact composed_i16.discard
          | i32 | enum => exact composed_i32.discard
          | i64 => exact composed_i64.discard
          | double => exact composed_double.discard
          | string => exact composed_binary.discard
          | struct => exact composed_frame (fun header _ => ih header.tag) ()
          | list | set =>
              exact composed_itemsHeader.bind fun header =>
                (ih header.element).times header.size
          | map =>
              exact composed_entriesHeader.bind fun header =>
                ((ih header.key).bind fun _ => ih header.value).times header.size

end Reader

end WireIdl
