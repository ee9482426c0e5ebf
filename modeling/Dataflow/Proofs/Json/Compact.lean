import Dataflow.Proofs.Json.Number

/-!
# Reading trees that were written on one line

The text of a tree on one line is always read, as the tree in which every double is replaced by
what its own text is read as (`Json.scan?_compact_eq`).  A tree without doubles is read back as
itself (`Json.scan?_compact`).  Inside of a text the tree is followed by a comma or a closing bracket, which the
induction leaves over (`Json.treeAt?_compactChars`).
-/

namespace Dataflow.Json

/-! ## The reader without the lengths

The reader returns with each rest that it is shorter.  Here the rests are plain texts, and each
function has one equation. -/

/-- A tree at the start of a text, and what follows it. -/
def treeAt? (cs : List Char) : Option (Json × List Char) :=
  (scanTree cs).map fun r => (r.1, r.2.1)

/-- The items of an array, and what follows them. -/
def itemsAt? (cs : List Char) : Option (List Json × List Char) :=
  (scanItems cs).map fun r => (r.1, r.2.1)

/-- The members of an object, and what follows them. -/
def membersAt? (cs : List Char) : Option (List (Option String × Json) × List Char) :=
  (scanMembers cs).map fun r => (r.1, r.2.1)

variable {cs rest after : List Char} {c : Char}

lemma skipSpace_cons (h : isSpace c = false) : skipSpace (c :: cs) = c :: cs := by
  simp [skipSpace, h]

lemma treeAt?_eq (cs : List Char) : treeAt? cs =
    match skipSpace cs with
    | '"' :: rest => (scanText rest).map fun r =>
      (match textOf? r.1 with | some s => .text s | none => .malformed, r.2)
    | '[' :: rest =>
      match skipSpace rest with
      | ']' :: after => some (.array [], after)
      | _ => (itemsAt? rest).map fun r => (.array r.1, r.2)
    | '\x7b' :: rest =>
      match skipSpace rest with
      | '\x7d' :: after => some (.object [], after)
      | _ => (membersAt? rest).map fun r => (objectOf r.1, r.2)
    | 'n' :: 'u' :: 'l' :: 'l' :: rest => some (.null, rest)
    | 't' :: 'r' :: 'u' :: 'e' :: rest => some (.bool true, rest)
    | 'f' :: 'a' :: 'l' :: 's' :: 'e' :: rest => some (.bool false, rest)
    | '-' :: rest => (scanNumeral true rest).map fun r => (r.1.toJson, r.2)
    | other => (scanNumeral false other).map fun r => (r.1.toJson, r.2) := by
  rw [treeAt?, scanTree]
  split
  case h_1 rest h =>
    simp only [h]
    split
    · rename_i pieces after ht
      cases htext : textOf? pieces <;> simp [ht, htext]
    · simp_all
  case h_2 rest h =>
    simp only [h]
    split
    · simp_all
    · rw [itemsAt?]
      split <;> simp_all
  case h_3 rest h =>
    simp only [h]
    split
    · simp_all
    · rw [membersAt?]
      split <;> simp_all
  case h_4 rest h => simp only [h, Option.map_some]
  case h_5 rest h => simp only [h, Option.map_some]
  case h_6 rest h => simp only [h, Option.map_some]
  case h_7 rest h =>
    simp only [h]
    split <;> simp_all
  case h_8 h => split <;> simp_all

lemma itemsAt?_eq (cs : List Char) : itemsAt? cs =
    match treeAt? cs with
    | none => none
    | some (j, rest) =>
      match skipSpace rest with
      | ',' :: more => (itemsAt? more).map fun r => (j :: r.1, r.2)
      | ']' :: after => some ([j], after)
      | _ => none := by
  rw [itemsAt?, scanItems, treeAt?]
  split
  · simp_all
  · rename_i j r hr heq
    simp only [heq, Option.map_some]
    split
    · rename_i more h
      simp only [h, itemsAt?]
      split <;> simp_all
    · rename_i h
      simp only [h, Option.map_some]
    · split <;> simp_all

lemma membersAt?_eq (cs : List Char) : membersAt? cs =
    match skipSpace cs with
    | '"' :: start =>
      match scanText start with
      | none => none
      | some (pieces, afterKey) =>
        match skipSpace afterKey with
        | ':' :: value =>
          match treeAt? value with
          | none => none
          | some (j, rest) =>
            match skipSpace rest with
            | ',' :: more => (membersAt? more).map fun r => ((textOf? pieces, j) :: r.1, r.2)
            | '\x7d' :: after => some ([(textOf? pieces, j)], after)
            | _ => none
        | _ => none
    | _ => none := by
  rw [membersAt?, scanMembers]
  split
  · rename_i start h
    simp only [h]
    split
    · rename_i hs
      simp only [hs, Option.map_none]
    · rename_i pieces afterKey hs
      simp only [hs]
      split
      · rename_i value hc
        simp only [hc, treeAt?]
        split
        · rename_i hv
          simp only [hv, Option.map_none]
        · rename_i j rest hrest hv
          simp only [hv, Option.map_some]
          split
          · rename_i more hm
            simp only [hm, membersAt?]
            split <;> simp_all
          · rename_i hm
            simp only [hm, Option.map_some]
          · split <;> simp_all
      · split <;> simp_all
  · split <;> simp_all


lemma scan?_eq (text : String) : scan? text =
    match treeAt? text.toList with
    | some (j, rest) => if (skipSpace rest).isEmpty then some j else none
    | none => none := by
  rw [scan?, treeAt?]
  split
  · rename_i h
    simp only [h, Option.map_some]
  · rename_i h
    simp only [h, Option.map_none]

/-! ## What is read -/

/-- What the text of a double is read as. -/
def rereadDouble (x : Float) : Json := (scan? (String.ofList (floatChars x))).getD .malformed

mutual

/-- What the text of a tree is read as: doubles are read on their own, and an integer is one
only if it fits a word. -/
def reread : Json → Json
  | null | malformed => null
  | bool b => bool b
  | int n => Numeral.toJson ⟨n < 0, Nat.toDigits 10 n.natAbs, [], none⟩
  | float x => rereadDouble x
  | text s => text s
  | array items => array (rereadItems items)
  | object members => object (rereadMembers members)

/-- `reread` for every item of a list. -/
def rereadItems : List Json → List Json
  | [] => []
  | j :: rest => reread j :: rereadItems rest

/-- `reread` for every value of a member list. -/
def rereadMembers : List (String × Json) → List (String × Json)
  | [] => []
  | (key, j) :: rest => (key, reread j) :: rereadMembers rest

end

mutual

/-- Whether a tree is sure to be read back as itself: no part is a double or denotes nothing, and
every integer fits a word. -/
def isExact : Json → Bool
  | null | bool _ | text _ => true
  | int n => -0x8000000000000000 ≤ n && n ≤ 0xFFFFFFFFFFFFFFFF
  | float _ | malformed => false
  | array items => areExact items
  | object members => membersExact members

/-- `isExact` for every item of a list. -/
def areExact : List Json → Bool
  | [] => true
  | j :: rest => isExact j && areExact rest

/-- `isExact` for every value of a member list. -/
def membersExact : List (String × Json) → Bool
  | [] => true
  | (_, j) :: rest => isExact j && membersExact rest

end

/-! ## Scalars -/

lemma treeAt?_textChars (s : String) (rest : List Char) :
    treeAt? (textChars s ++ rest) = some (.text s, rest) := by
  obtain ⟨pieces, hscan, htext⟩ := exists_scanText s rest
  have hchars : textChars s ++ rest = '"' :: (s.toList.flatMap escapeChar ++ '"' :: rest) := by
    simp [textChars]
  rw [hchars, treeAt?_eq, skipSpace_cons (by decide)]
  simp only [hscan, Option.map_some, htext]

lemma isSpace_of_isDigit {c : Char} (h : Text.isDigit c = true) : isSpace c = false := by
  simp only [isSpace, Bool.or_eq_false_iff, beq_eq_false_iff_ne]
  refine ⟨⟨⟨?_, ?_⟩, ?_⟩, ?_⟩ <;> rintro rfl <;> simp [Text.isDigit] at h

/-- A text that starts with a digit is a number. -/
lemma treeAt?_digit (h : Text.isDigit c = true) (cs : List Char) :
    treeAt? (c :: cs) = (scanNumeral false (c :: cs)).map fun r => (r.1.toJson, r.2) := by
  rw [treeAt?_eq, skipSpace_cons (isSpace_of_isDigit h)]
  split
  all_goals first
    | rfl
    | rename_i heq
      obtain ⟨rfl, -⟩ := List.cons.inj heq
      simp [Text.isDigit] at h

/-- A text of a number, behind its sign. -/
lemma treeAt?_sign {negative : Bool} {n : Numeral}
    (h : scanNumeral negative cs = some (n, rest)) :
    treeAt? (if negative then '-' :: cs else cs) = some (n.toJson, rest) := by
  cases negative with
  | true =>
    rw [if_pos rfl, treeAt?_eq, skipSpace_cons (by decide)]
    simp only [h, Option.map_some]
  | false =>
    obtain ⟨c, cs', rfl, hdigit⟩ := exists_digit_of_scanNumeral h
    rw [if_neg (by simp), treeAt?_digit hdigit, h, Option.map_some]

lemma intChars_eq (n : Int) : Decimal.intChars n =
    if decide (n < 0) then '-' :: Nat.toDigits 10 n.natAbs else Nat.toDigits 10 n.natAbs := by
  cases n with
  | ofNat m => simp [Decimal.intChars]
  | negSucc m =>
    have hneg : Int.negSucc m < 0 := Int.negSucc_lt_zero m
    simp [Decimal.intChars, hneg]

lemma treeAt?_intChars (n : Int) (h : Follows rest) :
    treeAt? (Decimal.intChars n ++ rest) = some ((int n).reread, rest) := by
  have hscan := treeAt?_sign (scanNumeral_toDigits (decide (n < 0)) n.natAbs h)
  rw [intChars_eq, reread, ← hscan]
  split <;> rfl

/-- A double whose text is a number behind its sign is read as that number. -/
lemma rereadDouble_eq {x : Float} {negative : Bool} {n : Numeral}
    (hchars : floatChars x = if negative then '-' :: cs else cs)
    (hscan : scanNumeral negative cs = some (n, [])) : rereadDouble x = n.toJson := by
  have htree := treeAt?_sign hscan
  rw [← hchars] at htree
  rw [rereadDouble, scan?_eq, String.toList_ofList, htree]
  rfl

lemma floatChars_of_not_finite {x : Float} (h : ∀ b, Decimal.view x ≠ .finite b) :
    floatChars x = "null".toList := by
  rw [floatChars]
  split
  · rename_i b hb
    exact absurd hb (h b)
  · rfl

/-- A double that is no finite number is written as null, and null it stays. -/
lemma rereadDouble_of_not_finite {x : Float} (h : ∀ b, Decimal.view x ≠ .finite b) :
    rereadDouble x = null := by
  rw [rereadDouble, floatChars_of_not_finite h, scan?_eq, String.toList_ofList, treeAt?_eq]
  rfl

/-- A finite double is never read as anything but a double; it may come out too large. -/
lemma rereadDouble_of_finite {x : Float} {b : Decimal.Binary} (h : Decimal.view x = .finite b) :
    rereadDouble x = malformed ∨ ∃ y, rereadDouble x = float y := by
  obtain ⟨chars, n, hchars, hne, halone, -⟩ := exists_numeral_floatChars h
  rw [rereadDouble_eq hchars halone, toJson_of_ne hne]
  split
  · exact .inr ⟨_, rfl⟩
  · exact .inl rfl

lemma treeAt?_floatChars (x : Float) (h : Follows rest) :
    treeAt? (floatChars x ++ rest) = some (rereadDouble x, rest) := by
  by_cases hview : ∃ b, Decimal.view x = .finite b
  · obtain ⟨b, hb⟩ := hview
    obtain ⟨chars, n, hchars, -, halone, hscan⟩ := exists_numeral_floatChars hb
    rw [rereadDouble_eq hchars halone, hchars, ← treeAt?_sign (hscan rest h)]
    split <;> rfl
  · have hnot := not_exists.1 hview
    rw [rereadDouble_of_not_finite hnot, floatChars_of_not_finite hnot, treeAt?_eq]
    rfl

/-! ## Trees -/

/-- A number starts with a character that is neither space nor a closing bracket. -/
lemma exists_sign {negative : Bool} {n : Numeral}
    (h : scanNumeral negative cs = some (n, rest)) :
    ∃ c cs', (if negative then '-' :: cs else cs) = c :: cs' ∧ isSpace c = false ∧ c ≠ ']' := by
  obtain ⟨c, cs', rfl, hdigit⟩ := exists_digit_of_scanNumeral h
  cases negative with
  | true => exact ⟨'-', _, rfl, by decide, by decide⟩
  | false =>
    refine ⟨c, cs', rfl, isSpace_of_isDigit hdigit, ?_⟩
    rintro rfl
    simp [Text.isDigit] at hdigit

/-- A tree starts with a character that is neither space nor a closing bracket. -/
lemma exists_compactChars (j : Json) :
    ∃ c cs, j.compactChars = c :: cs ∧ isSpace c = false ∧ c ≠ ']' := by
  cases j with
  | null => exact ⟨'n', _, rfl, by decide, by decide⟩
  | bool b =>
    cases b with
    | false => exact ⟨'f', _, rfl, by decide, by decide⟩
    | true => exact ⟨'t', _, rfl, by decide, by decide⟩
  | int n =>
    have hscan := scanNumeral_toDigits (decide (n < 0)) n.natAbs (show Follows [] from trivial)
    rw [List.append_nil] at hscan
    rw [compactChars, intChars_eq]
    exact exists_sign hscan
  | float x =>
    rw [compactChars]
    by_cases hview : ∃ b, Decimal.view x = .finite b
    · obtain ⟨b, hb⟩ := hview
      obtain ⟨chars, n, hchars, -, halone, -⟩ := exists_numeral_floatChars hb
      rw [hchars]
      exact exists_sign halone
    · exact ⟨'n', _, floatChars_of_not_finite (not_exists.1 hview), by decide, by decide⟩
  | text s => exact ⟨'"', _, rfl, by decide, by decide⟩
  | array items => exact ⟨'[', _, rfl, by decide, by decide⟩
  | object members => exact ⟨'\x7b', _, rfl, by decide, by decide⟩
  | malformed => exact ⟨'n', _, rfl, by decide, by decide⟩

lemma objectOf_map_some (members : List (String × Json)) :
    objectOf (members.map fun m => (some m.1, m.2)) = .object members := by
  have hall : (members.map fun m => (some m.1, m.2)).mapM
      (fun (m : Option String × Json) => m.1.map fun k => (k, m.2)) = some members := by
    induction members with
    | nil => rfl
    | cons m members ih => simp [ih]
  rw [objectOf]
  simp only [hall]

/-- The bracket before a first item. -/
lemma treeAt?_bracket (hspace : isSpace c = false) (hclose : c ≠ ']') (cs : List Char) :
    treeAt? ('[' :: c :: cs) = (itemsAt? (c :: cs)).map fun r => (.array r.1, r.2) := by
  rw [treeAt?_eq, skipSpace_cons (by decide)]
  simp only [skipSpace_cons hspace]
  split
  · rename_i heq
    exact absurd (List.cons.inj heq).1 hclose
  · rfl

/-- The brace before a first key. -/
lemma treeAt?_brace (cs : List Char) :
    treeAt? ('\x7b' :: '"' :: cs) =
      (membersAt? ('"' :: cs)).map fun r => (objectOf r.1, r.2) := by
  rw [treeAt?_eq, skipSpace_cons (by decide)]
  simp only [skipSpace_cons (show isSpace '"' = false by decide)]
  rfl

/-- One member, up to what follows its value. -/
lemma membersAt?_textChars (key : String) {j : Json} {cs rest : List Char}
    (hj : treeAt? cs = some (j, rest)) :
    membersAt? (textChars key ++ ':' :: cs) =
      match skipSpace rest with
      | ',' :: more => (membersAt? more).map fun r => ((some key, j) :: r.1, r.2)
      | '\x7d' :: after => some ([(some key, j)], after)
      | _ => none := by
  obtain ⟨pieces, hscan, htext⟩ := exists_scanText key (':' :: cs)
  have hchars : textChars key ++ ':' :: cs =
      '"' :: (key.toList.flatMap escapeChar ++ '"' :: ':' :: cs) := by
    simp [textChars]
  rw [hchars, membersAt?_eq, skipSpace_cons (by decide)]
  simp only [hscan, skipSpace_cons (show isSpace ':' = false by decide), hj, htext]

mutual

/-- A tree is read from its text, up to what follows it. -/
theorem treeAt?_compactChars (j : Json) (rest : List Char) (h : Follows rest) :
    treeAt? (j.compactChars ++ rest) = some (j.reread, rest) := by
  match j with
  | null =>
    rw [compactChars, treeAt?_eq]
    rfl
  | malformed =>
    rw [compactChars, treeAt?_eq]
    rfl
  | bool b =>
    rw [compactChars, treeAt?_eq]
    cases b <;> rfl
  | int n => exact treeAt?_intChars n h
  | float x => exact treeAt?_floatChars x h
  | text s => exact treeAt?_textChars s rest
  | array [] =>
    rw [compactChars, treeAt?_eq]
    rfl
  | array (j :: items) =>
    have hitems : itemsAt? (compactItems (j :: items) ++ rest) =
        some (rereadItems (j :: items), rest) :=
      itemsAt?_compactItems (j :: items) rest (by simp)
    obtain ⟨c, cs, hchars, hspace, hclose⟩ := exists_compactChars j
    obtain ⟨tail, htail⟩ : ∃ tail, compactItems (j :: items) ++ rest = c :: tail := by
      cases items <;> simp [compactItems, hchars]
    rw [compactChars, List.cons_append, htail, treeAt?_bracket hspace hclose, ← htail, hitems]
    rfl
  | object [] =>
    rw [compactChars, treeAt?_eq]
    rfl
  | object ((key, j) :: members) =>
    have hmembers := membersAt?_compactMembers ((key, j) :: members) rest (by simp)
    obtain ⟨tail, htail⟩ : ∃ tail,
        compactMembers ((key, j) :: members) ++ rest = '"' :: tail := by
      cases members <;> simp [compactMembers, textChars]
    rw [compactChars, List.cons_append, htail, treeAt?_brace, ← htail, hmembers, Option.map_some,
      objectOf_map_some]
    rfl

/-- The items of an array, of which there is at least one. -/
theorem itemsAt?_compactItems (items : List Json) (rest : List Char) (hne : items ≠ []) :
    itemsAt? (compactItems items ++ rest) = some (rereadItems items, rest) := by
  match items with
  | [] => exact absurd rfl hne
  | [j] =>
    have htree := treeAt?_compactChars j (']' :: rest) (.inr (.inl rfl))
    rw [compactItems, List.append_assoc, List.singleton_append, itemsAt?_eq, htree]
    rfl
  | j :: j' :: items =>
    have htree := treeAt?_compactChars j (',' :: (compactItems (j' :: items) ++ rest)) (.inl rfl)
    have hrest := itemsAt?_compactItems (j' :: items) rest (by simp)
    rw [compactItems, List.append_assoc, List.cons_append, itemsAt?_eq, htree]
    · simp only [skipSpace_cons (show isSpace ',' = false by decide), hrest, Option.map_some]
      rfl
    · simp

/-- The members of an object, of which there is at least one. -/
theorem membersAt?_compactMembers (members : List (String × Json)) (rest : List Char)
    (hne : members ≠ []) : membersAt? (compactMembers members ++ rest) =
      some ((rereadMembers members).map fun m => (some m.1, m.2), rest) := by
  match members with
  | [] => exact absurd rfl hne
  | [(key, j)] =>
    have htree := treeAt?_compactChars j ('\x7d' :: rest) (.inr (.inr rfl))
    rw [compactMembers]
    simp only [List.append_assoc, List.cons_append, List.nil_append]
    rw [membersAt?_textChars key htree]
    rfl
  | (key, j) :: (key', j') :: members =>
    have htree := treeAt?_compactChars j (',' :: (compactMembers ((key', j') :: members) ++ rest))
      (.inl rfl)
    have hrest := membersAt?_compactMembers ((key', j') :: members) rest (by simp)
    rw [compactMembers]
    · simp only [List.append_assoc, List.cons_append]
      rw [membersAt?_textChars key htree]
      simp only [skipSpace_cons (show isSpace ',' = false by decide), hrest, Option.map_some]
      rfl
    · simp

end

/-- The text of a tree is always read. -/
theorem scan?_compact_eq (j : Json) : scan? j.compact = some j.reread := by
  have htree : treeAt? j.compact.toList = some (j.reread, []) := by
    rw [compact, String.toList_ofList]
    simpa using treeAt?_compactChars j [] trivial
  rw [scan?_eq, htree]
  rfl

lemma parse?_compact_eq (j : Json) :
    parse? j.compact = if j.reread.isReadable maxDepth then some j.reread else none := by
  rw [parse?, scan?_compact_eq, Option.filter_some]

/-! ## Trees without doubles -/

lemma reread_int {n : Int} (hlow : -0x8000000000000000 ≤ n) (hhigh : n ≤ 0xFFFFFFFFFFFFFFFF) :
    (int n).reread = int n := by
  rw [reread, Numeral.toJson]
  by_cases hneg : n < 0
  · simp only [digitsValue_toDigits, hneg, Decimal.largestWord, decide_true]
    rw [if_neg (by simp), if_pos ⟨trivial, trivial, trivial, by omega, by omega⟩]
    simp only [int.injEq]
    omega
  · simp only [digitsValue_toDigits, hneg, Decimal.largestWord, decide_false]
    rw [if_pos (by simp; omega)]
    simp only [int.injEq]
    omega

mutual

/-- A tree without doubles is read back as itself. -/
theorem reread_of_isExact {j : Json} (h : j.isExact = true) : j.reread = j := by
  match j with
  | null | bool _ | text _ => rfl
  | int n =>
    simp only [isExact, Bool.and_eq_true, decide_eq_true_eq] at h
    exact reread_int h.1 h.2
  | float x => simp [isExact] at h
  | malformed => simp [isExact] at h
  | array items =>
    rw [isExact] at h
    rw [reread, rereadItems_of_areExact h]
  | object members =>
    rw [isExact] at h
    rw [reread, rereadMembers_of_membersExact h]

lemma rereadItems_of_areExact {items : List Json} (h : areExact items = true) :
    rereadItems items = items := by
  match items with
  | [] => rfl
  | j :: rest =>
    rw [areExact, Bool.and_eq_true] at h
    rw [rereadItems, reread_of_isExact h.1, rereadItems_of_areExact h.2]

lemma rereadMembers_of_membersExact {members : List (String × Json)}
    (h : membersExact members = true) : rereadMembers members = members := by
  match members with
  | [] => rfl
  | (key, j) :: rest =>
    rw [membersExact, Bool.and_eq_true] at h
    rw [rereadMembers, reread_of_isExact h.1, rereadMembers_of_membersExact h.2]

end

lemma scan?_compact {j : Json} (hj : j.isExact = true) : scan? j.compact = some j := by
  rw [scan?_compact_eq, reread_of_isExact hj]

end Dataflow.Json
