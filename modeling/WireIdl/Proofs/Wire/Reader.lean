import WireIdl.Proofs.Wire.Bytes
import WireIdl.Wire.Reader
import Mathlib.Data.List.Forall2

/-! What each reader takes from a source. A reader of one item succeeds exactly on the sources that
start with the bytes of the item; the source behind those bytes is what it leaves. -/

namespace WireIdl

variable {α β : Type}

namespace Source

/-- A source with more bytes in front. -/
def prepend (source : Source) (bytes : Bytes) : Source :=
  { source with unread := bytes ++ source.unread }

@[simp] theorem unread_prepend (source : Source) (bytes : Bytes) :
    (source.prepend bytes).unread = bytes ++ source.unread := rfl

theorem prepend_prepend (source : Source) (front back : Bytes) :
    (source.prepend back).prepend front = source.prepend (front ++ back) := by
  simp [prepend, List.append_assoc]

end Source

namespace Reader

theorem bind_eq_ok {x : Reader α} {f : α → Reader β} {source rest : Source} {b : β} :
    (x >>= f) source = .ok b rest ↔
      ∃ a middle, x source = .ok a middle ∧ f a middle = .ok b rest := by
  change EStateM.bind x f source = .ok b rest ↔ _
  rw [EStateM.bind]
  cases hx : x source with
  | ok a middle =>
      constructor
      · intro h
        exact ⟨a, middle, rfl, h⟩
      · intro h
        rcases h with ⟨_, _, hsame, hf⟩
        cases hsame
        exact hf
  | error fault middle =>
      constructor
      · intro h
        cases h
      · intro h
        rcases h with ⟨_, _, hsame, _⟩
        cases hsame

theorem bind_of_ok {reader : Reader α} {f : α → Reader β} {source rest : Source} {a : α}
    (h : reader source = .ok a rest) : (reader >>= f) source = f a rest := by
  change EStateM.bind reader f source = _
  rw [EStateM.bind, h]

theorem pure_eq_ok {source rest : Source} {a b : α} :
    (pure a : Reader α) source = .ok b rest ↔ a = b ∧ source = rest := by
  constructor
  · intro h
    cases h
    exact ⟨rfl, rfl⟩
  · intro h
    rcases h with ⟨rfl, rfl⟩
    rfl

theorem bind_pure_eq_ok {x : Reader α} {f : α → β} {source rest : Source} {b : β} :
    (x >>= fun a => pure (f a)) source = .ok b rest ↔
      ∃ a, x source = .ok a rest ∧ f a = b := by
  rw [bind_eq_ok]
  constructor
  · intro hread
    rcases hread with ⟨a, middle, hx, hf⟩
    obtain ⟨rfl, rfl⟩ := pure_eq_ok.mp hf
    exact ⟨a, hx, rfl⟩
  · intro hread
    rcases hread with ⟨a, hx, rfl⟩
    exact ⟨a, rest, hx, rfl⟩

theorem discard_eq_ok {item : Reader α} {source rest : Source} :
    discard item source = .ok () rest ↔ ∃ a, item source = .ok a rest := by
  rw [discard, bind_pure_eq_ok]
  simp

theorem take_eq_ok {count : Nat} {source rest : Source} {bytes : Bytes} :
    take count source = .ok bytes rest ↔
      bytes.length = count ∧ source = rest.prepend bytes := by
  simp only [take]
  split
  · next hlength =>
      constructor
      · intro h
        cases h
        refine ⟨hlength, ?_⟩
        simp [Source.prepend]
      · intro hbytes
        rcases hbytes with ⟨rfl, rfl⟩
        simp [Source.prepend]
  · next hlength =>
      constructor
      · intro h
        cases h
      · intro hbytes
        rcases hbytes with ⟨rfl, rfl⟩
        simp at hlength

theorem rawByte_eq_ok {source rest : Source} {b : UInt8} :
    rawByte source = .ok b rest ↔ source = rest.prepend [b] := by
  rcases source with ⟨unread, frames⟩
  cases unread with
  | nil => simp [rawByte, Source.prepend]
  | cons c unread =>
      constructor
      · intro h
        cases h
        rfl
      · intro h
        cases h
        rfl

/-- What is read from a fixed number of bytes, if the bytes can be told from it. -/
theorem fixed_eq_ok {width : Nat} {decode : Bytes → α} {encode : α → Bytes}
    (hlength : ∀ a, (encode a).length = width) (hdecode : ∀ a, decode (encode a) = a)
    (hencode : ∀ {bytes : Bytes}, bytes.length = width → encode (decode bytes) = bytes)
    {source rest : Source} {a : α} :
    (take width >>= fun bytes => pure (decode bytes)) source = .ok a rest ↔
      source = rest.prepend (encode a) := by
  rw [bind_pure_eq_ok]
  simp only [take_eq_ok]
  constructor
  · intro hread
    rcases hread with ⟨bytes, ⟨hbytes, rfl⟩, rfl⟩
    rw [hencode hbytes]
  · intro hbytes
    subst hbytes
    exact ⟨encode a, ⟨hlength a, rfl⟩, hdecode a⟩

theorem i16_eq_ok {source rest : Source} {v : Int16} :
    i16 source = .ok v rest ↔ source = rest.prepend (Bytes.ofI16 v) :=
  fixed_eq_ok Bytes.length_ofI16 Bytes.toI16_ofI16 Bytes.ofI16_toI16

theorem i32_eq_ok {source rest : Source} {v : Int32} :
    i32 source = .ok v rest ↔ source = rest.prepend (Bytes.ofI32 v) :=
  fixed_eq_ok Bytes.length_ofI32 Bytes.toI32_ofI32 Bytes.ofI32_toI32

theorem i64_eq_ok {source rest : Source} {v : Int64} :
    i64 source = .ok v rest ↔ source = rest.prepend (Bytes.ofI64 v) :=
  fixed_eq_ok Bytes.length_ofI64 Bytes.toI64_ofI64 Bytes.ofI64_toI64

theorem double_eq_ok {source rest : Source} {v : Double} :
    double source = .ok v rest ↔ source = rest.prepend (Bytes.ofDouble v) :=
  fixed_eq_ok Bytes.length_ofDouble Bytes.toDouble_ofDouble Bytes.ofDouble_toDouble

theorem size_eq_ok {source rest : Source} {count : Nat} :
    size source = .ok count rest ↔
      count < 2 ^ 31 ∧ source = rest.prepend (Bytes.ofI32 (Int32.ofNat count)) := by
  rw [size, bind_eq_ok]
  simp only [i32_eq_ok]
  constructor
  · intro hread
    rcases hread with ⟨v, middle, rfl, h⟩
    split at h
    · cases h
    · next hneg =>
        obtain ⟨rfl, rfl⟩ := pure_eq_ok.mp h
        have hnonneg : 0 ≤ v := Int32.not_lt.mp hneg
        rw [Int32.toNat_toInt, Int32.ofNat_toNatClampNeg v hnonneg]
        exact ⟨v.toNatClampNeg_lt, rfl⟩
  · intro hbytes
    rcases hbytes with ⟨hcount, rfl⟩
    refine ⟨Int32.ofNat count, rest, rfl, ?_⟩
    have hint : (Int32.ofNat count).toInt = count := Int32.toInt_ofNat_of_lt hcount
    have hneg : ¬ Int32.ofNat count < 0 := by
      rw [Int32.lt_iff_toInt_lt, hint]
      simp
    rw [if_neg hneg, hint, Int.toNat_natCast]
    rfl

theorem binary_eq_ok {source rest : Source} {bytes : Bytes} :
    binary source = .ok bytes rest ↔
      bytes.length < 2 ^ 31 ∧
        source = rest.prepend (Bytes.ofI32 (Int32.ofNat bytes.length) ++ bytes) := by
  rw [binary, bind_eq_ok]
  simp only [size_eq_ok, take_eq_ok]
  constructor
  · intro hread
    rcases hread with ⟨count, middle, ⟨hcount, rfl⟩, rfl, rfl⟩
    exact ⟨hcount, rest.prepend_prepend _ _⟩
  · intro hbytes
    rcases hbytes with ⟨hcount, rfl⟩
    exact ⟨bytes.length, rest.prepend bytes, ⟨hcount, (rest.prepend_prepend _ _).symm⟩, rfl, rfl⟩

theorem fieldHeader_eq_ok {source rest : Source} {header : FieldHeader} :
    fieldHeader source = .ok header rest ↔
      header = ⟨Tag.stop, 0⟩ ∧ source = rest.prepend Encoding.fieldStop ∨
        header.tag ≠ Tag.stop ∧
          source = rest.prepend (Encoding.fieldHeader header.id header.tag) := by
  rw [fieldHeader, bind_eq_ok]
  simp only [rawByte_eq_ok]
  constructor
  · intro hread
    rcases hread with ⟨tag, middle, rfl, h⟩
    split at h
    · next hstop =>
        obtain ⟨rfl, rfl⟩ := pure_eq_ok.mp h
        exact .inl ⟨by rw [hstop], by rw [hstop]; rfl⟩
    · next hstop =>
        obtain ⟨id, hid, rfl⟩ := bind_pure_eq_ok.mp h
        rw [i16_eq_ok.mp hid]
        exact .inr ⟨hstop, rest.prepend_prepend _ _⟩
  · intro hbytes
    rcases hbytes with ⟨rfl, rfl⟩ | ⟨hstop, rfl⟩
    · exact ⟨Tag.stop, rest, rfl, by rw [if_pos rfl]; rfl⟩
    · refine ⟨header.tag, rest.prepend (Bytes.ofI16 header.id), rfl, ?_⟩
      rw [if_neg hstop]
      exact bind_pure_eq_ok.mpr ⟨header.id, i16_eq_ok.mpr rfl, rfl⟩

theorem itemsHeader_eq_ok {source rest : Source} {header : ItemsHeader} :
    itemsHeader source = .ok header rest ↔
      header.size < 2 ^ 31 ∧
        source = rest.prepend
          (Encoding.itemsHeader header.element (Int32.ofNat header.size)) := by
  rw [itemsHeader, bind_eq_ok]
  simp only [rawByte_eq_ok, bind_pure_eq_ok, size_eq_ok]
  constructor
  · intro hread
    rcases hread with ⟨element, middle, rfl, count, ⟨hcount, rfl⟩, rfl⟩
    exact ⟨hcount, rest.prepend_prepend _ _⟩
  · intro hbytes
    rcases hbytes with ⟨hcount, rfl⟩
    exact ⟨header.element, rest.prepend (Bytes.ofI32 (Int32.ofNat header.size)), rfl,
      header.size, ⟨hcount, rfl⟩, rfl⟩

theorem entriesHeader_eq_ok {source rest : Source} {header : EntriesHeader} :
    entriesHeader source = .ok header rest ↔
      header.size < 2 ^ 31 ∧
        source = rest.prepend
          (Encoding.entriesHeader header.key header.value (Int32.ofNat header.size)) := by
  rw [entriesHeader, bind_eq_ok]
  simp only [bind_eq_ok (x := rawByte), rawByte_eq_ok, bind_pure_eq_ok, size_eq_ok]
  constructor
  · intro hread
    rcases hread with ⟨key, behindKey, rfl, value, behindValue, rfl, count, ⟨hcount, rfl⟩, rfl⟩
    refine ⟨hcount, ?_⟩
    rw [rest.prepend_prepend, rest.prepend_prepend]
    rfl
  · intro hbytes
    rcases hbytes with ⟨hcount, rfl⟩
    let size := Bytes.ofI32 (Int32.ofNat header.size)
    exact ⟨header.key, rest.prepend (header.value :: size), rfl,
      header.value, rest.prepend size, rfl, header.size, ⟨hcount, rfl⟩, rfl⟩

/-! Readers that follow a value of known bytes to its end, or to the depth limit. -/

/-- With `frames` frames open the reader takes `bytes` and gives `a` if `p` holds; otherwise it
stops at the depth limit. What comes behind the bytes does not matter. -/
structure TakesIf (p : Prop) (reader : Reader α) (frames : Nat) (bytes : Bytes) (a : α) :
    Prop where
  takes : p → ∀ rest, reader ⟨bytes ++ rest, frames⟩ = .ok a ⟨rest, frames⟩
  refuses : ¬ p → ∀ rest, ∃ left,
    reader ⟨bytes ++ rest, frames⟩ = .error (.depthLimit maxFrames) left

namespace TakesIf

variable {p q : Prop} {reader : Reader α} {frames : Nat} {bytes : Bytes} {a : α}

theorem always (h : ∀ rest : Source, reader (rest.prepend bytes) = .ok a rest) :
    TakesIf True reader frames bytes a where
  takes := fun _ rest => h ⟨rest, frames⟩
  refuses := fun hfalse => absurd trivial hfalse

theorem never
    (h : ∀ rest, ∃ left, reader ⟨bytes ++ rest, frames⟩ = .error (.depthLimit maxFrames) left) :
    TakesIf False reader frames bytes a where
  takes := False.elim
  refuses := fun _ => h

theorem congr (h : TakesIf p reader frames bytes a) (hiff : p ↔ q) :
    TakesIf q reader frames bytes a where
  takes := fun hq => h.takes (hiff.mpr hq)
  refuses := fun hq => h.refuses fun hp => hq (hiff.mp hp)

theorem bind {f : α → Reader β} {more : Bytes} {b : β} (h : TakesIf p reader frames bytes a)
    (hf : TakesIf q (f a) frames more b) :
    TakesIf (p ∧ q) (reader >>= f) frames (bytes ++ more) b := by
  constructor
  · intro hboth rest
    rcases hboth with ⟨hp, hq⟩
    rw [List.append_assoc]
    exact bind_eq_ok.mpr ⟨a, _, h.takes hp _, hf.takes hq rest⟩
  · intro hpq rest
    rw [List.append_assoc]
    change ∃ left, EStateM.bind reader f _ = _
    rw [EStateM.bind]
    by_cases hp : p
    · have hq : ¬ q := fun hq => hpq ⟨hp, hq⟩
      rw [h.takes hp]
      exact hf.refuses hq rest
    · obtain ⟨left, hleft⟩ := h.refuses hp (more ++ rest)
      rw [hleft]
      exact ⟨left, rfl⟩

theorem bind_ok {f : α → Reader β} {b : β} (h : TakesIf p reader frames bytes a)
    (hf : ∀ rest, f a rest = .ok b rest) : TakesIf p (reader >>= f) frames bytes b := by
  have hthen : TakesIf True (f a) frames [] b := always hf
  have hbind := h.bind hthen
  rw [List.append_nil] at hbind
  exact hbind.congr (and_iff_left trivial)

theorem bind_pure {f : α → β} (h : TakesIf p reader frames bytes a) :
    TakesIf p (reader >>= fun a => pure (f a)) frames bytes (f a) :=
  h.bind_ok fun _ => rfl

theorem after {f : α → Reader β} {more : Bytes} {b : β}
    (h : ∀ rest : Source, reader (rest.prepend bytes) = .ok a rest)
    (hf : TakesIf q (f a) frames more b) :
    TakesIf q (reader >>= f) frames (bytes ++ more) b :=
  ((always h).bind hf).congr (and_iff_right trivial)

theorem times {ω : Type} {item : Reader Unit} {encode : ω → Bytes} {fits : ω → Prop}
    {parts : List ω} (h : ∀ part ∈ parts, TakesIf (fits part) item frames (encode part) ()) :
    TakesIf (∀ part ∈ parts, fits part) (Reader.times item parts.length) frames
      (parts.flatMap encode) () := by
  induction parts with
  | nil => exact (always fun _ => rfl).congr (by simp)
  | cons part parts ih =>
      have hfirst := h part List.mem_cons_self
      have hrest := ih fun other hother => h other (List.mem_cons_of_mem part hother)
      rw [List.flatMap_cons, List.length_cons, Reader.times]
      exact (hfirst.bind hrest).congr List.forall_mem_cons.symm

theorem collect {ω : Type} {item : Reader α} {encode : ω → Bytes} {fits : ω → Prop}
    {parts : List ω} {results : List α}
    (h : List.Forall₂ (fun part a => TakesIf (fits part) item frames (encode part) a)
      parts results) :
    TakesIf (∀ part ∈ parts, fits part) (Reader.collect item parts.length) frames
      (parts.flatMap encode) results := by
  induction h with
  | nil => exact (always fun _ => rfl).congr (by simp)
  | cons hfirst _ ih =>
      rw [List.flatMap_cons, List.length_cons, Reader.collect]
      exact (hfirst.bind ih.bind_pure).congr List.forall_mem_cons.symm

end TakesIf

theorem openFrame_of_lt {source : Source} (h : source.frames < maxFrames) :
    openFrame source = .ok () { source with frames := source.frames + 1 } := by
  rw [openFrame, if_neg (Nat.not_le.mpr h)]

theorem openFrame_of_le {source : Source} (h : maxFrames ≤ source.frames) :
    openFrame source = .error (.depthLimit maxFrames) source := by
  rw [openFrame, if_pos h]

/-- A struct frame, from what its fields take. The fields may use as many steps as there are bytes,
and there are at least as many bytes as those of the frame. -/
theorem TakesIf.frame {σ : Type} {field : FieldHeader → σ → Reader σ} {start final : σ}
    {p : Prop} {frames : Nat} {bytes : Bytes}
    (h : frames < maxFrames → ∀ steps, bytes.length ≤ steps →
      TakesIf p (fields field steps start) (frames + 1) bytes final) :
    TakesIf (frames < maxFrames ∧ p) (Reader.frame field start) frames bytes final := by
  constructor
  · intro hboth rest
    rcases hboth with ⟨hframes, hp⟩
    have hbody := (h hframes (bytes ++ rest).length (by simp)).takes hp rest
    refine bind_eq_ok.mpr ⟨(), _, openFrame_of_lt hframes, ?_⟩
    refine bind_eq_ok.mpr ⟨_, _, rfl, ?_⟩
    exact bind_eq_ok.mpr ⟨final, _, hbody, rfl⟩
  · intro hnot rest
    change ∃ left, EStateM.bind openFrame _ _ = _
    rw [EStateM.bind]
    by_cases hframes : frames < maxFrames
    · have hp : ¬ p := fun hp => hnot ⟨hframes, hp⟩
      obtain ⟨left, hleft⟩ :=
        (h hframes (bytes ++ rest).length (by simp)).refuses hp rest
      rw [openFrame_of_lt hframes]
      refine ⟨left, ?_⟩
      change EStateM.bind (fields field (bytes ++ rest).length start) _ _ = _
      rw [EStateM.bind, hleft]
    · rw [openFrame_of_le (Nat.not_lt.mp hframes)]
      exact ⟨_, rfl⟩

end Reader

end WireIdl
