import Postmortem.Memory.Image
import Postmortem.Proofs.Checked.Basic

/-! # Memory images without traps

The checked version of a read from an image. It fills a buffer segment by segment; the sum that the
read starts with keeps every position inside of the address space (`Checked.fill_eq`). -/

namespace Postmortem.Checked

variable (image : Image)

/-- The bytes of the segment that an address belongs to, and the place of the address in them. -/
def locate? (address : Nat) : Checked (Option (List UInt8 × Nat)) :=
  match image.segments.find? fun s => s.base.toNat ≤ address with
  | none => .ok none
  | some s => do
    let offset ← sub address s.base.toNat
    return if offset < s.bytes.toList.length then some (s.bytes.toList, offset) else none

/-- Fills a buffer for the bytes from an address on, the first of which it holds already. Every
round copies from one segment. -/
def fill (address : Nat) : (rounds : Nat) → (buffer : List UInt8) → (filled : Nat) →
    Checked (Option (List UInt8))
  | 0, _, _ => .error .endless
  | rounds + 1, buffer, filled => do
    if buffer.length ≤ filled then return some buffer
    match ← locate? image (← add address filled) with
    | none => return none
    | some (bytes, offset) =>
      let count := min (← sub bytes.length offset) (← sub buffer.length filled)
      let part ← slice bytes offset (← add offset count)
      let stop ← add filled count
      fill address rounds (← overwrite buffer filled stop part) stop

def read (address : Word) (buffer : List UInt8) : Checked (Except ReadError (List UInt8)) :=
  if Word.top < address.toNat + buffer.length then .ok (.error (.overflow address))
  else do
    match ← fill image address.toNat (buffer.length + 1) buffer 0 with
    | some bytes => return .ok bytes
    | none => return .error (.unmapped address buffer.length)

variable {image}

/-- What is at an address: no byte, or a segment with at least one byte from there on. -/
theorem locate?_cases (address limit : Nat) :
    (locate? image address = .ok none ∧ image.fragment address limit = []) ∨
      ∃ bytes offset, locate? image address = .ok (some (bytes, offset)) ∧ offset < bytes.length ∧
        offset ≤ address ∧ image.fragment address limit = (bytes.drop offset).take limit := by
  unfold locate? Image.fragment
  cases found : image.segments.find? fun s => s.base.toNat ≤ address with
  | none => exact .inl ⟨rfl, rfl⟩
  | some s =>
    have below : s.base.toNat ≤ address := by simpa using List.find?_some found
    dsimp only
    rw [sub_eq below, ok_bind, Array.toList_extract, List.extract_eq_take_drop,
      Nat.add_sub_cancel_left]
    split
    · rename_i inside
      exact .inr ⟨_, _, rfl, inside, Nat.sub_le _ _, rfl⟩
    · rename_i beyond
      rw [List.drop_eq_nil_of_le (Nat.le_of_not_lt beyond), List.take_nil]
      exact .inl ⟨rfl, rfl⟩

section fill

variable {address filled rounds : Nat} {buffer : List UInt8}
  (fits : address + buffer.length ≤ Word.top)

include fits

theorem fill_of_unmapped (more : filled < buffer.length)
    (unmapped : image.fragment (address + filled) (buffer.length - filled) = []) :
    fill image address (rounds + 1) buffer filled = .ok none := by
  rw [fill, if_neg (Nat.not_le.2 more), add_eq (by omega), ok_bind]
  rcases locate?_cases (address + filled) (buffer.length - filled) with
    ⟨located, -⟩ | ⟨bytes, offset, located, within, -, part⟩
  · rw [located]
    rfl
  · have empty := congrArg List.length (part.symm.trans unmapped)
    rw [List.length_take, List.length_drop, List.length_nil] at empty
    omega

theorem fill_of_mapped {part : List UInt8} (more : filled < buffer.length)
    (mapped : image.fragment (address + filled) (buffer.length - filled) = part)
    (nonempty : part ≠ []) :
    fill image address (rounds + 1) buffer filled =
      fill image address rounds (buffer.take filled ++ part ++ buffer.drop (filled + part.length))
        (filled + part.length) := by
  rw [fill, if_neg (Nat.not_le.2 more), add_eq (by omega), ok_bind]
  rcases locate?_cases (address + filled) (buffer.length - filled) with
    ⟨-, empty⟩ | ⟨bytes, offset, located, within, before, taken⟩
  · exact absurd (mapped.symm.trans empty) nonempty
  · have part_eq : part = (bytes.drop offset).take (buffer.length - filled) :=
      mapped.symm.trans taken
    have count : min (bytes.length - offset) (buffer.length - filled) = part.length := by
      rw [part_eq, List.length_take, List.length_drop, Nat.min_comm]
    have copied : (bytes.take (offset + part.length)).drop offset = part := by
      rw [List.drop_take, Nat.add_sub_cancel_left, part_eq, List.take_eq_take_iff]
      simp
    rw [located, ok_bind]
    dsimp only
    rw [sub_eq (Nat.le_of_lt within), ok_bind, sub_eq (Nat.le_of_lt more), ok_bind, count,
      add_eq (by omega), ok_bind, slice_eq (by omega) (by omega), ok_bind, copied,
      add_eq (by omega), ok_bind, overwrite_eq (by omega) rfl, ok_bind]

theorem fill_eq (inside : filled ≤ buffer.length) (enough : buffer.length - filled < rounds) :
    fill image address rounds buffer filled =
      .ok ((image.collect? (address + filled) (buffer.length - filled)).map
        (buffer.take filled ++ ·)) := by
  induction rounds generalizing buffer filled with
  | zero => omega
  | succ rounds ih =>
    rw [Image.collect?]
    by_cases full : buffer.length ≤ filled
    · rw [fill, if_pos full, if_pos (by omega), List.take_of_length_le full]
      simp
      rfl
    · have more := Nat.lt_of_not_le full
      rw [if_neg (by omega)]
      split
      · rename_i unmapped
        rw [fill_of_unmapped fits more unmapped]
        rfl
      · rename_i mapped
        dsimp only
        generalize found : image.fragment (address + filled) (buffer.length - filled) = part
          at mapped
        have pos := List.length_pos_iff.2 mapped
        have short : part.length ≤ buffer.length - filled := found ▸ image.length_fragment_le ..
        rw [fill_of_mapped fits more found mapped]
        have same : (buffer.take filled ++ part ++ buffer.drop (filled + part.length)).length =
            buffer.length := by
          simp only [List.length_append, List.length_take, List.length_drop]
          omega
        have kept : (buffer.take filled ++ part ++ buffer.drop (filled + part.length)).take
            (filled + part.length) = buffer.take filled ++ part := by
          refine List.take_left' ?_
          rw [List.length_append, List.length_take, Nat.min_eq_left inside]
        rw [ih (by omega) (by omega) (by omega), same, kept, Nat.add_assoc, Nat.sub_add_eq,
          Option.map_map]
        congr 2
        funext rest
        exact List.append_assoc ..

end fill

theorem read_eq (address : Word) (buffer : List UInt8) :
    read image address buffer = .ok (image.read address buffer.length) := by
  unfold read Image.read
  split
  · rfl
  · rename_i inside
    rw [fill_eq (Nat.le_of_not_lt inside) (Nat.zero_le _) (by omega), ok_bind]
    simp only [Nat.add_zero, Nat.sub_zero, List.take_zero, List.nil_append, Option.map_id']
    cases image.collect? address.toNat buffer.length <;> rfl

end Postmortem.Checked
