import Mathlib.Algebra.Ring.Nat
import Mathlib.Data.List.Basic
import Dataflow.Plan.Bytes

/-!
# Reading bytes that were written

Numbers, texts and lists come back from their bytes, and what follows them is left over.
`Bytes.Returns` says this of one thing; it holds of a record if it holds of the parts
(`Bytes.Returns.bind`), which are read in the order in which they were written.  Writing fails
only for numbers and lengths of more than 64 bits (`Bytes.isSome_concat?` and the lemmas after it).
-/

namespace Dataflow.Bytes

/-- What is read back from whatever was written, no matter what follows it: a result, which the
reader leaves behind, or none. -/
def Returns {α : Type} (written : Option (List UInt8)) (read : Reader α) (result : Option α) :
    Prop :=
  ∀ bytes, written = some bytes → ∀ rest, read (bytes ++ rest) = result.map fun a => (a, rest)

variable {α β : Type} {a : α} {b : β} {n : ℕ} {s : String}

/-! ## Parts -/

/-- Nothing is written for a result that nothing is read for. -/
lemma Returns.nil : Returns (concat? []) (fun bytes => some (a, bytes)) (some a) := by
  rintro bytes hbytes rest
  obtain rfl := Option.some.inj hbytes
  rfl

/-- One part after the other. -/
lemma Returns.bind {part : Option (List UInt8)} {parts : List (Option (List UInt8))}
    {read : Reader α} {next : α × List UInt8 → Option (β × List UInt8)} {result : Option α}
    {f : α → Option β} (hpart : Returns part read result)
    (hparts : ∀ a, result = some a → Returns (concat? parts) (fun rest => next (a, rest)) (f a)) :
    Returns (concat? (part :: parts)) (fun bytes => read bytes >>= next) (result.bind f) := by
  intro bytes hbytes rest
  simp only [concat?, Option.bind_eq_bind, Option.bind_eq_some_iff, Option.pure_def,
    Option.some.injEq] at hbytes
  obtain ⟨first, hfirst, others, hothers, rfl⟩ := hbytes
  show read (first ++ others ++ rest) >>= next = _
  rw [List.append_assoc, hpart first hfirst]
  cases result with
  | none => rfl
  | some a => exact hparts a rfl others hothers rest

/-- A part that is read back as something. -/
lemma Returns.bind_some {part : Option (List UInt8)} {parts : List (Option (List UInt8))}
    {read : Reader α} {next : α × List UInt8 → Option (β × List UInt8)} {result : Option β}
    (hpart : Returns part read (some a))
    (hparts : Returns (concat? parts) (fun rest => next (a, rest)) result) :
    Returns (concat? (part :: parts)) (fun bytes => read bytes >>= next) result :=
  Returns.bind (f := fun _ => result) hpart fun a' ha => by
    obtain rfl := Option.some.inj ha
    exact hparts

/-- The parts are written if each of them is. -/
lemma isSome_concat? {parts : List (Option (List UInt8))} :
    (concat? parts).isSome ↔ ∀ part ∈ parts, part.isSome := by
  induction parts with
  | nil => simp [concat?]
  | cons part parts ih =>
    rw [List.forall_mem_cons, ← ih, concat?]
    cases part <;> cases concat? parts <;> simp

/-! ## Numbers -/

lemma length_littleEndian (width n : ℕ) : (littleEndian width n).length = width := by
  induction width generalizing n with
  | zero => rfl
  | succ width ih => rw [littleEndian, List.length_cons, ih]

lemma ofLittleEndian_littleEndian (width : ℕ) {n : ℕ} (h : n < 256 ^ width) :
    ofLittleEndian (littleEndian width n) = n := by
  induction width generalizing n with
  | zero =>
    rw [Nat.pow_zero] at h
    rw [littleEndian, ofLittleEndian]
    omega
  | succ width ih =>
    have hdiv : n / 256 < 256 ^ width := by
      rw [Nat.pow_succ] at h
      exact Nat.div_lt_of_lt_mul (by rwa [Nat.mul_comm])
    have hlow : (UInt8.ofNat (n % 256)).toNat = n % 256 := by
      simp
    rw [littleEndian, ofLittleEndian, ih hdiv, hlow]
    omega

lemma take?_append (bytes rest : List UInt8) :
    take? bytes.length (bytes ++ rest) = some (bytes, rest) := by
  rw [take?, if_pos (by simp), List.take_left, List.drop_left]

lemma wide?_littleEndian (width : ℕ) {n : ℕ} (h : n < 256 ^ width) (rest : List UInt8) :
    wide? width (littleEndian width n ++ rest) = some (n, rest) := by
  have htake : take? width (littleEndian width n ++ rest) = some (littleEndian width n, rest) := by
    have hlength := take?_append (littleEndian width n) rest
    rwa [length_littleEndian] at hlength
  rw [wide?, htake]
  simp [ofLittleEndian_littleEndian width h]

lemma nat?_small {n : ℕ} (h : n < 251) (rest : List UInt8) :
    nat? (UInt8.ofNat n :: rest) = some (n, rest) := by
  have hbyte : (UInt8.ofNat n).toNat = n := by simp; omega
  have hlt : UInt8.ofNat n < 251 := by
    rw [UInt8.lt_iff_toNat_lt, hbyte]
    exact h
  rw [nat?, if_pos hlt, hbyte]

lemma isSome_ofNat? : (ofNat? n).isSome ↔ n < 2 ^ 64 := by
  rw [ofNat?]
  split_ifs <;> simp <;> omega

lemma returns_nat : Returns (ofNat? n) nat? (some n) := by
  intro bytes hbytes rest
  rw [ofNat?] at hbytes
  split_ifs at hbytes with h₁ h₂ h₄ h₈ <;> obtain rfl := Option.some.inj hbytes
  · exact nat?_small h₁ rest
  · exact wide?_littleEndian 2 h₂ rest
  · exact wide?_littleEndian 4 h₄ rest
  · exact wide?_littleEndian 8 h₈ rest

/-- The index of a form. -/
lemma returns_index (h : n < 251) : Returns (ofNat? n) index? (some n) := by
  have hne : UInt8.ofNat n ≠ 253 := by
    intro heq
    have hbyte : (UInt8.ofNat n).toNat = n := by simp; omega
    rw [heq] at hbyte
    simp at hbyte
    omega
  intro bytes hbytes rest
  rw [ofNat?, if_pos h] at hbytes
  obtain rfl := Option.some.inj hbytes
  rw [List.singleton_append, index?, if_neg hne, nat?_small h]
  rfl

/-! ## Texts and lists -/

lemma fromUTF8?_toUTF8 (s : String) : String.fromUTF8? s.toUTF8 = some s := by
  have hvalid : s.toUTF8.IsValidUTF8 := s.isValidUTF8
  rw [String.fromUTF8?, dif_pos hvalid]
  rfl

lemma isSome_ofText? : (ofText? s).isSome ↔ s.utf8ByteSize < 2 ^ 64 := by
  simp [ofText?, isSome_concat?, isSome_ofNat?]

lemma returns_text : Returns (ofText? s) text? (some s) := by
  have hlength : s.toUTF8.data.toList.length = s.utf8ByteSize := by
    simp
  refine Returns.bind_some returns_nat fun bytes hbytes rest => ?_
  have htake := take?_append s.toUTF8.data.toList rest
  rw [hlength] at htake
  obtain rfl : s.toUTF8.data.toList = bytes := by simpa [concat?] using hbytes
  show (take? s.utf8ByteSize (s.toUTF8.data.toList ++ rest) >>= fun r =>
    String.fromUTF8? ⟨r.1.toArray⟩ >>= fun t => some (t, r.2)) = _
  rw [htake, Option.bind_eq_bind, Option.bind_some, Array.toArray_toList, fromUTF8?_toUTF8]
  rfl

lemma isSome_ofList? {write : α → Option (List UInt8)} {l : List α} :
    (ofList? write l).isSome ↔ l.length < 2 ^ 64 ∧ ∀ a ∈ l, (write a).isSome := by
  simp [ofList?, isSome_concat?, isSome_ofNat?]

lemma returns_many {write : α → Option (List UInt8)} {read : Reader β} {f : α → Option β}
    {l : List α} (h : ∀ a ∈ l, Returns (write a) read (f a)) :
    Returns (concat? (l.map write)) (many? read l.length) (l.mapM f) := by
  induction l with
  | nil => exact Returns.nil
  | cons a l ih =>
    have hrest := ih fun x hx => h x (List.mem_cons_of_mem a hx)
    rw [List.mapM_cons]
    refine Returns.bind (h a List.mem_cons_self) fun b _ bytes hbytes rest => ?_
    show (many? read l.length (bytes ++ rest) >>= fun r => some (b :: r.1, r.2)) = _
    rw [hrest bytes hbytes]
    cases l.mapM f <;> rfl

/-- Each item is read on its own. -/
lemma returns_list {write : α → Option (List UInt8)} {read : Reader β} {f : α → Option β}
    {l : List α} (h : ∀ a ∈ l, Returns (write a) read (f a)) :
    Returns (ofList? write l) (list? read) (l.mapM f) :=
  Returns.bind_some returns_nat (returns_many h)

/-- An action that gives back every member of a list gives back the list. -/
lemma mapM_eq_some_self_iff {f : α → Option α} {l : List α} :
    l.mapM f = some l ↔ ∀ a ∈ l, f a = some a := by
  induction l with
  | nil => simp
  | cons a l ih =>
    rw [List.mapM_cons, List.forall_mem_cons, ← ih]
    cases f a <;> cases l.mapM f <;> simp

lemma map_eq_of_mapM_eq_some {γ : Type} {f : α → Option β} {g : β → γ} {g' : α → γ}
    (hf : ∀ a b, f a = some b → g b = g' a) {l : List α} {l' : List β} (h : l.mapM f = some l') :
    l'.map g = l.map g' := by
  induction l generalizing l' with
  | nil =>
    obtain rfl := Option.some.inj h
    rfl
  | cons a l ih =>
    simp only [List.mapM_cons, Option.bind_eq_bind, Option.bind_eq_some_iff, Option.pure_def,
      Option.some.injEq] at h
    obtain ⟨b, hb, rest, hrest, rfl⟩ := h
    rw [List.map_cons, List.map_cons, hf a b hb, ih hrest]

lemma returns_list_self {write : α → Option (List UInt8)} {read : Reader α}
    (h : ∀ a, Returns (write a) read (some a)) (l : List α) :
    Returns (ofList? write l) (list? read) (some l) := by
  rw [← mapM_eq_some_self_iff.2 fun a (_ : a ∈ l) => rfl]
  exact returns_list fun a _ => h a

end Dataflow.Bytes
