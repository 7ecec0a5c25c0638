import StackEditor.Proofs.Json.Leaves

/-!
# Reading what was written

The text of a value is cut into marks, and the marks make a draft that spells the value. Both
halves are told of a part of the text with anything behind it (`CutsInto`, `DraftsAs`), so the text
of an array or an object is put together from those of its parts: they stand between brackets with
commas between them, and with space wherever the layout puts it (`IsGap`).

Only a value in which no object has a key twice and all numbers are natural numbers of 64 bits is
read back as it is (`Plain`), and the induction is on that, for either layout
(`Plain.readsAs_layout`, `Plain.readsAs_write`).
-/

namespace StackEditor.Json

/-! ## Texts of marks -/

/-- The text is cut into the marks, whatever comes behind it that does not go on with a number. -/
def CutsInto (cs : List Char) (ms : List Mark) : Prop :=
  ∀ rest, EndsNumber rest → marks (cs ++ rest) = ms ++ marks rest

/-- There is only space in the text. -/
def IsGap (cs : List Char) : Prop := ∀ c ∈ cs, isSpace c = true

/-- The empty text is cut into no marks. -/
theorem cutsInto_nil : CutsInto [] [] := fun _ _ => rfl

/-- Two texts are cut one behind the other, if the second one does not go on with a number that ends
the first one. -/
theorem CutsInto.append {cs ds : List Char} {ms ms' : List Mark} (h : CutsInto cs ms)
    (h' : CutsInto ds ms') (hds : ∀ rest, EndsNumber rest → EndsNumber (ds ++ rest)) :
    CutsInto (cs ++ ds) (ms ++ ms') := by
  intro rest hrest
  rw [List.append_assoc, h _ (hds rest hrest), h' rest hrest, List.append_assoc]

/-- Space is cut away. -/
theorem CutsInto.gap_append {gap cs : List Char} {ms : List Mark} (hgap : IsGap gap)
    (h : CutsInto cs ms) : CutsInto (gap ++ cs) ms := by
  induction gap with
  | nil => exact h
  | cons c gap ih =>
    obtain ⟨hc, hgap⟩ := List.forall_mem_cons.mp hgap
    intro rest hrest
    rw [List.cons_append, List.cons_append, marks, if_pos hc]
    exact ih hgap rest hrest

/-- A number ends at space. -/
theorem IsGap.endsNumber {gap rest : List Char} (h : IsGap gap) (hrest : EndsNumber rest) :
    EndsNumber (gap ++ rest) := by
  cases gap with
  | nil => exact hrest
  | cons c gap =>
    rintro _ ⟨⟩
    have hc := h c (.head gap)
    simp only [isSpace, Bool.or_eq_true, beq_iff_eq, or_assoc] at hc
    rcases hc with rfl | rfl | rfl | rfl <;> decide

/-- A bracket, a comma or a colon is no space, and no part of a number. -/
theorem of_punctuation? {c : Char} {m : Mark} (h : punctuation? c = some m) :
    isSpace c = false ∧ c.isDigit = false ∧ c ≠ '.' ∧ c ≠ 'e' ∧ c ≠ 'E' := by
  unfold punctuation? at h
  split at h
  case h_7 => cases h
  all_goals decide

/-- A number ends at a bracket, a comma or a colon. -/
theorem endsNumber_punctuation {c : Char} {m : Mark} (h : punctuation? c = some m)
    (rest : List Char) : EndsNumber (c :: rest) := by
  rintro _ ⟨⟩
  exact (of_punctuation? h).2

/-- A bracket, a comma or a colon, whatever stands behind it. -/
theorem CutsInto.cons {c : Char} {m : Mark} {cs : List Char} {ms : List Mark}
    (hc : punctuation? c = some m) (h : CutsInto cs ms) : CutsInto (c :: cs) (m :: ms) := by
  intro rest hrest
  have hspace : isSpace c = false := (of_punctuation? hc).1
  rw [List.cons_append, marks, if_neg (by simp [hspace]), firstMark, hc, List.cons_append,
    ← h rest hrest]
  rfl

/-- A text that is one mark. -/
theorem cutsInto_of_firstMark {c : Char} {cs : List Char} {m : Mark} (hspace : isSpace c = false)
    (h : ∀ rest, EndsNumber rest → firstMark c (cs ++ rest) = (m, some cs.length)) :
    CutsInto (c :: cs) [m] := by
  intro rest hrest
  rw [List.cons_append, marks, if_neg (by simp [hspace]), h rest hrest]
  simp

/-- The text `null` is one mark. -/
theorem cutsInto_null : CutsInto "null".toList [.literal (.ok .null)] :=
  cutsInto_of_firstMark (by decide) fun _ _ => rfl

/-- The text of a truth value is one mark. -/
theorem cutsInto_bool (b : Bool) :
    CutsInto (if b then "true" else "false").toList [.literal (.ok (.bool b))] := by
  cases b
  · exact cutsInto_of_firstMark (by decide) fun _ _ => rfl
  · exact cutsInto_of_firstMark (by decide) fun _ _ => rfl

/-- A string in quotes is one mark, whatever characters it has. -/
theorem cutsInto_quote (s : String) : CutsInto (quote s) [.string (.of s)] := by
  have hquote : quote s = '"' :: (s.toList.flatMap escape ++ ['"']) := rfl
  rw [hquote]
  refine cutsInto_of_firstMark (by decide) fun rest _ => ?_
  rw [List.append_assoc, List.singleton_append]
  have hnone : punctuation? '"' = none := rfl
  simp only [firstMark, hnone, if_true, Quoted.ofText_flatMap_escape]
  simp [Quoted.of, Except.toOption]

/-- A digit starts a number and nothing else. -/
theorem firstMark_of_isDigit {c : Char} (h : c.isDigit = true) (rest : List Char) :
    isSpace c = false ∧ firstMark c rest =
      let n := Numeral.ofText (c :: rest)
      (.number n, n.width.toOption.map (· - 1)) := by
  have hother : ∀ d, d.isDigit = false → c ≠ d := by
    rintro _ hd rfl
    cases h.symm.trans hd
  have hnone : punctuation? c = none := by
    refine Option.eq_none_iff_forall_ne_some.mpr fun m hm => ?_
    cases h.symm.trans (of_punctuation? hm).2.1
  constructor
  · simp [isSpace, hother ' ' rfl, hother '\n' rfl, hother '\t' rfl, hother '\r' rfl]
  · simp [firstMark, hnone, hother '"' rfl, startsNumber, h]

/-- The digits of a number of 64 bits are one mark. -/
theorem cutsInto_decimalDigits {n : Nat} (hn : n ≤ maxWord64) :
    CutsInto (Text.decimalDigits n) [.number (.of n)] := by
  obtain ⟨c, ds, hds⟩ := List.exists_cons_of_ne_nil (decimalDigits_ne_nil n)
  have hdigit : c.isDigit = true := Text.isDigit_of_mem_decimalDigits (n := n) (hds ▸ .head ds)
  rw [hds]
  refine cutsInto_of_firstMark (firstMark_of_isDigit hdigit []).1 fun rest hrest => ?_
  have hnumeral := Numeral.ofText_decimalDigits hn hrest
  rw [hds, List.cons_append] at hnumeral
  rw [(firstMark_of_isDigit hdigit _).2, hnumeral]
  simp [Numeral.of, Except.toOption, hds]

/-! ## Texts of values -/

/-- The marks make a draft of the value, whatever marks come behind them. -/
def DraftsAs (ms : List Mark) (j : Json) : Prop :=
  ∀ n rest, ms.length ≤ n → ∃ d, draftOf n (ms ++ rest) = (d, rest) ∧ d.Spells j

/-- The text is read as the value, whatever comes behind it that does not go on with a number. -/
def ReadsAs (cs : List Char) (j : Json) : Prop := ∃ ms, CutsInto cs ms ∧ DraftsAs ms j

/-- No value is made of no marks. -/
theorem DraftsAs.ne_nil {ms : List Mark} {j : Json} (h : DraftsAs ms j) : ms ≠ [] := by
  rintro rfl
  obtain ⟨d, hd, hspells⟩ := h 0 [] (Nat.le_refl 0)
  obtain rfl : .absent = d := congrArg Prod.fst hd
  cases hspells

/-- No value starts with a bracket that closes, so an array in front of it is not empty. -/
theorem DraftsAs.draftOf_openArray {ms : List Mark} {j : Json} (h : DraftsAs ms j) (n : Nat)
    (rest : List Mark) : draftOf (n + 1) (.openArray :: (ms ++ rest)) =
      (.array (.item (draftOf n (ms ++ rest)).1 (moreItems n (draftOf n (ms ++ rest)).2).1),
        (moreItems n (draftOf n (ms ++ rest)).2).2) := by
  cases ms with
  | nil => exact absurd rfl h.ne_nil
  | cons m ms =>
    rw [List.cons_append, draftOf]
    · intro hnil
      cases hnil
    · rintro rest' heq
      obtain ⟨d, hd, hspells⟩ := h _ [] (Nat.le_refl _)
      obtain rfl := (List.cons.inj heq).1
      obtain rfl : .stray = d := congrArg Prod.fst hd
      cases hspells

/-- A member is a string, a colon and a value. -/
theorem memberOf_colon {n : Nat} {q : Quoted} {ms ms' rest : List Mark} {d : Draft} {xms : Members}
    (hd : draftOf n (ms ++ ms') = (d, ms')) (hxms : moreMembers n ms' = (xms, rest)) :
    memberOf (n + 1) (.string q :: .colon :: (ms ++ ms')) = (.member q d xms, rest) := by
  rw [memberOf]
  dsimp only
  rw [hd]
  dsimp only
  rw [hxms]

/-- The text is read as the member of an object. -/
def MemberReadsAs (cs : List Char) (x : String × Json) : Prop :=
  ∃ ms, CutsInto cs (.string (.of x.1) :: .colon :: ms) ∧ DraftsAs ms x.2

/-- A key, a colon, space and the text of a value are read as the member. -/
theorem ReadsAs.member {gap cs : List Char} {j : Json} (h : ReadsAs cs j) (hgap : IsGap gap)
    (key : String) : MemberReadsAs (quote key ++ ':' :: (gap ++ cs)) (key, j) := by
  obtain ⟨ms, hcut, hdraft⟩ := h
  exact ⟨ms, (cutsInto_quote key).append ((hcut.gap_append hgap).cons rfl)
    fun rest _ => endsNumber_punctuation (c := ':') rfl _, hdraft⟩

/-- A text that is one mark is read as the value that the mark spells. -/
theorem CutsInto.readsAs {cs : List Char} {m : Mark} {j : Json} (h : CutsInto cs [m])
    (hleaf : ∀ n rest, draftOf (n + 1) (m :: rest) = (m.leaf, rest)) (hspells : m.leaf.Spells j) :
    ReadsAs cs j := by
  refine ⟨[m], h, fun n rest hn => ?_⟩
  cases n with
  | zero => simp at hn
  | succ n => exact ⟨_, hleaf n rest, hspells⟩

/-- The text `null` is read as null. -/
theorem readsAs_null : ReadsAs "null".toList .null :=
  cutsInto_null.readsAs (fun _ _ => rfl) (.literal .null)

/-- The text of a truth value is read as that value. -/
theorem readsAs_bool (b : Bool) : ReadsAs (if b then "true" else "false").toList (.bool b) :=
  (cutsInto_bool b).readsAs (fun _ _ => rfl) (.literal (.bool b))

/-- The digits of a number of 64 bits are read as the number. -/
theorem readsAs_natural {n : Nat} (hn : n ≤ maxWord64) :
    ReadsAs (Text.decimalDigits n) (.number (.natural n)) :=
  (cutsInto_decimalDigits hn).readsAs (fun _ _ => rfl) (.number rfl rfl)

/-- A string in quotes is read as the string. -/
theorem readsAs_string (s : String) : ReadsAs (quote s) (.string s) :=
  (cutsInto_quote s).readsAs (fun _ _ => rfl) (.string rfl rfl)

/-! ## Arrays and objects -/

/-- What comes behind an item or a member: a comma and the next one, or space and the bracket. -/
def behind (gap close : List Char) (last : Char) (ts : List (List Char)) : List Char :=
  ts.flatMap (',' :: gap ++ ·) ++ (close ++ [last])

/-- Of several texts the first one stands alone, and each other one behind a comma. -/
theorem separate_cons (gap t : List Char) (ts : List (List Char)) :
    separate gap (t :: ts) = t ++ ts.flatMap (',' :: gap ++ ·) := by
  induction ts generalizing t with
  | nil => simp [separate]
  | cons t' ts ih =>
    rw [separate, ih, List.flatMap_cons]
    · simp
    · nofun

/-- The texts between brackets are the first one and what comes behind it. -/
theorem enclose_cons (first : Char) (gap close : List Char) (last : Char) (t : List Char)
    (ts : List (List Char)) : enclose first gap close last (t :: ts) =
      first :: (gap ++ (t ++ behind gap close last ts)) := by
  rw [enclose, separate_cons, behind]
  · simp
  · nofun

/-- Behind a text there is a comma, and the next text with what is behind that. -/
theorem behind_cons (gap close : List Char) (last : Char) (t : List Char) (ts : List (List Char)) :
    behind gap close last (t :: ts) = ',' :: (gap ++ (t ++ behind gap close last ts)) := by
  simp [behind]

section
variable {gap close : List Char} {last : Char} {m : Mark}

/-- A number ends at what stands behind an item. -/
theorem endsNumber_behind (hclose : IsGap close) (hlast : punctuation? last = some m)
    (ts : List (List Char)) (rest : List Char) :
    EndsNumber (behind gap close last ts ++ rest) := by
  cases ts with
  | nil =>
    rw [behind, List.flatMap_nil, List.nil_append, List.append_assoc]
    exact hclose.endsNumber (endsNumber_punctuation hlast rest)
  | cons t ts =>
    rw [behind_cons]
    exact endsNumber_punctuation (c := ',') rfl _

/-- Behind the last item there is only the bracket that closes. -/
theorem cutsInto_behind_nil (hclose : IsGap close) (hlast : punctuation? last = some m) :
    CutsInto (behind gap close last []) [m] := by
  rw [behind, List.flatMap_nil, List.nil_append]
  exact (cutsInto_nil.cons hlast).gap_append hclose

/-- A text with others behind it. -/
theorem CutsInto.append_behind {t : List Char} {ts : List (List Char)} {ms ms' : List Mark}
    (hgap : IsGap gap) (hclose : IsGap close) (hlast : punctuation? last = some m)
    (h : CutsInto t ms) (h' : CutsInto (behind gap close last ts) ms') :
    CutsInto (gap ++ (t ++ behind gap close last ts)) (ms ++ ms') :=
  (h.append h' fun rest _ => endsNumber_behind hclose hlast ts rest).gap_append hgap

end

section
variable {gap close : List Char} (hgap : IsGap gap) (hclose : IsGap close)
include hgap hclose

/-- The items behind an item. -/
theorem exists_moreItems {f : Json → List Char} {js : List Json} (h : ∀ j ∈ js, ReadsAs (f j) j) :
    ∃ ms, CutsInto (behind gap close ']' (js.map f)) ms ∧
      ∀ n rest, ms.length ≤ n → ∃ is, moreItems n (ms ++ rest) = (is, rest) ∧ is.Spells js := by
  induction js with
  | nil =>
    refine ⟨[.closeArray], cutsInto_behind_nil hclose rfl, fun n rest hn => ?_⟩
    cases n with
    | zero => simp at hn
    | succ n => exact ⟨_, rfl, .closed⟩
  | cons j js ih =>
    obtain ⟨⟨ms, hcut, hdraft⟩, hjs⟩ := List.forall_mem_cons.mp h
    obtain ⟨ms', hcut', hmore⟩ := ih hjs
    refine ⟨.comma :: (ms ++ ms'), ?_, fun n rest hn => ?_⟩
    · rw [List.map_cons, behind_cons]
      exact (hcut.append_behind hgap hclose rfl hcut').cons rfl
    · cases n with
      | zero => simp at hn
      | succ n =>
        simp only [List.length_cons, List.length_append] at hn
        obtain ⟨d, hd, hspells⟩ := hdraft n (ms' ++ rest) (by omega)
        obtain ⟨is, his, hspells'⟩ := hmore n rest (by omega)
        refine ⟨.item d is, ?_, .item hspells hspells'⟩
        rw [List.cons_append, List.append_assoc, moreItems]
        dsimp only
        rw [hd, his]

/-- Texts between square brackets are read as the array of what each of them is read as. -/
theorem readsAs_array {f : Json → List Char} {js : List Json} (h : ∀ j ∈ js, ReadsAs (f j) j) :
    ReadsAs (enclose '[' gap close ']' (js.map f)) (.array js) := by
  cases js with
  | nil =>
    refine ⟨[.openArray, .closeArray], (cutsInto_nil.cons rfl).cons rfl, fun n rest hn => ?_⟩
    cases n with
    | zero => simp at hn
    | succ n => exact ⟨_, rfl, .array .closed⟩
  | cons j js =>
    obtain ⟨⟨ms, hcut, hdraft⟩, hjs⟩ := List.forall_mem_cons.mp h
    obtain ⟨ms', hcut', hmore⟩ := exists_moreItems hgap hclose hjs
    refine ⟨.openArray :: (ms ++ ms'), ?_, fun n rest hn => ?_⟩
    · rw [List.map_cons, enclose_cons]
      exact (hcut.append_behind hgap hclose rfl hcut').cons rfl
    · cases n with
      | zero => simp at hn
      | succ n =>
        simp only [List.length_cons, List.length_append] at hn
        obtain ⟨d, hd, hspells⟩ := hdraft n (ms' ++ rest) (by omega)
        obtain ⟨is, his, hspells'⟩ := hmore n rest (by omega)
        refine ⟨.array (.item d is), ?_, .array (.item hspells hspells')⟩
        rw [List.cons_append, List.append_assoc, hdraft.draftOf_openArray, hd]
        dsimp only
        rw [his]

/-- The members behind a member. -/
theorem exists_moreMembers {f : String × Json → List Char} {xs : List (String × Json)}
    (h : ∀ x ∈ xs, MemberReadsAs (f x) x) :
    ∃ ms, CutsInto (behind gap close '\x7d' (xs.map f)) ms ∧
      ∀ n rest, ms.length ≤ n →
        ∃ xms, moreMembers n (ms ++ rest) = (xms, rest) ∧ xms.Spells xs := by
  induction xs with
  | nil =>
    refine ⟨[.closeObject], cutsInto_behind_nil hclose rfl, fun n rest hn => ?_⟩
    cases n with
    | zero => simp at hn
    | succ n => exact ⟨_, rfl, .closed⟩
  | cons x xs ih =>
    obtain ⟨⟨ms, hcut, hdraft⟩, hxs⟩ := List.forall_mem_cons.mp h
    obtain ⟨ms', hcut', hmore⟩ := ih hxs
    refine ⟨.comma :: (.string (.of x.1) :: .colon :: ms ++ ms'), ?_, fun n rest hn => ?_⟩
    · rw [List.map_cons, behind_cons]
      exact (hcut.append_behind hgap hclose rfl hcut').cons rfl
    · simp only [List.length_cons, List.length_append] at hn
      obtain ⟨n, rfl⟩ := Nat.exists_eq_add_of_le' (show 2 ≤ n by omega)
      obtain ⟨d, hd, hspells⟩ := hdraft n (ms' ++ rest) (by omega)
      obtain ⟨xms, hxms, hspells'⟩ := hmore n rest (by omega)
      refine ⟨.member (.of x.1) d xms, ?_, .member rfl rfl hspells hspells'⟩
      rw [List.cons_append, List.append_assoc, moreMembers]
      rw [List.cons_append, List.cons_append, memberOf_colon hd hxms]

/-- Members between braces are read as the object, if no two of them have one key. -/
theorem readsAs_object {f : String × Json → List Char} {xs : List (String × Json)}
    (hkeys : (xs.map (·.1)).Nodup) (h : ∀ x ∈ xs, MemberReadsAs (f x) x) :
    ReadsAs (enclose '\x7b' gap close '\x7d' (xs.map f)) (.object xs) := by
  cases xs with
  | nil =>
    refine ⟨[.openObject, .closeObject], (cutsInto_nil.cons rfl).cons rfl, fun n rest hn => ?_⟩
    cases n with
    | zero => simp at hn
    | succ n => exact ⟨_, rfl, .object .closed hkeys⟩
  | cons x xs =>
    obtain ⟨⟨ms, hcut, hdraft⟩, hxs⟩ := List.forall_mem_cons.mp h
    obtain ⟨ms', hcut', hmore⟩ := exists_moreMembers hgap hclose hxs
    refine ⟨.openObject :: (.string (.of x.1) :: .colon :: ms ++ ms'), ?_, fun n rest hn => ?_⟩
    · rw [List.map_cons, enclose_cons]
      exact (hcut.append_behind hgap hclose rfl hcut').cons rfl
    · simp only [List.length_cons, List.length_append] at hn
      obtain ⟨n, rfl⟩ := Nat.exists_eq_add_of_le' (show 2 ≤ n by omega)
      obtain ⟨d, hd, hspells⟩ := hdraft n (ms' ++ rest) (by omega)
      obtain ⟨xms, hxms, hspells'⟩ := hmore n rest (by omega)
      refine ⟨.object (.member (.of x.1) d xms), ?_,
        .object (.member rfl rfl hspells hspells') hkeys⟩
      rw [List.cons_append, List.append_assoc, List.cons_append, List.cons_append, draftOf]
      · rw [memberOf_colon hd hxms]
      · intro _ heq
        cases heq

end

/-! ## The two layouts -/

/-- No object has a key twice, and every number is a natural number of 64 bits. -/
inductive Plain : Json → Prop
  | null : Plain .null
  | bool (b : Bool) : Plain (.bool b)
  | natural {n : Nat} (hn : n ≤ maxWord64) : Plain (.number (.natural n))
  | string (s : String) : Plain (.string s)
  | array {js : List Json} (hitems : ∀ j ∈ js, Plain j) : Plain (.array js)
  | object {xs : List (String × Json)} (hkeys : (xs.map (·.1)).Nodup)
      (hmembers : ∀ x ∈ xs, Plain x.2) : Plain (.object xs)

/-- The items of an array are laid out one by one. -/
theorem layoutItems_eq_map (depth : Nat) (js : List Json) :
    layoutItems depth js = js.map (layout depth) := by
  induction js with
  | nil => rfl
  | cons j js ih => rw [layoutItems, ih, List.map_cons]

/-- The members of an object are laid out one by one, each behind its key. -/
theorem layoutMembers_eq_map (depth : Nat) (xs : List (String × Json)) :
    layoutMembers depth xs = xs.map fun x => quote x.1 ++ ':' :: ' ' :: layout depth x.2 := by
  induction xs with
  | nil => rfl
  | cons x xs ih => rw [layoutMembers, ih, List.map_cons]

/-- A new line is space, however far it is indented. -/
theorem isGap_newline (depth : Nat) : IsGap (newline depth) := by
  refine List.forall_mem_cons.mpr ⟨rfl, fun c hc => ?_⟩
  rw [List.eq_of_mem_replicate hc]
  rfl

/-- A blank is space. -/
theorem isGap_space : IsGap [' '] := List.forall_mem_singleton.mpr rfl

/-- The text of a value on lines is read as the value, at any depth. -/
theorem Plain.readsAs_layout {j : Json} (h : j.Plain) (depth : Nat) :
    ReadsAs (j.layout depth) j := by
  induction h generalizing depth with
  | null => exact readsAs_null
  | bool b => exact readsAs_bool b
  | natural hn => exact readsAs_natural hn
  | string s => exact readsAs_string s
  | array hitems ih =>
    rw [layout, layoutItems_eq_map]
    exact readsAs_array (isGap_newline _) (isGap_newline _) fun j hj => ih j hj _
  | object hkeys hmembers ih =>
    rw [layout, layoutMembers_eq_map]
    refine readsAs_object (isGap_newline _) (isGap_newline _) hkeys fun x hx => ?_
    exact (ih x hx _).member isGap_space x.1

/-- The items of an array are written one by one. -/
theorem writeItems_eq_map (js : List Json) : writeItems js = js.map write := by
  induction js with
  | nil => rfl
  | cons j js ih => rw [writeItems, ih, List.map_cons]

/-- The members of an object are written one by one, each behind its key. -/
theorem writeMembers_eq_map (xs : List (String × Json)) :
    writeMembers xs = xs.map fun x => quote x.1 ++ ':' :: write x.2 := by
  induction xs with
  | nil => rfl
  | cons x xs ih => rw [writeMembers, ih, List.map_cons]

/-- Nothing is space, too. -/
theorem isGap_nil : IsGap [] := nofun

/-- The text of a value without space is read as the value. -/
theorem Plain.readsAs_write {j : Json} (h : j.Plain) : ReadsAs j.write j := by
  induction h with
  | null => exact readsAs_null
  | bool b => exact readsAs_bool b
  | natural hn => exact readsAs_natural hn
  | string s => exact readsAs_string s
  | array hitems ih =>
    rw [write, writeItems_eq_map]
    exact readsAs_array isGap_nil isGap_nil ih
  | object hkeys hmembers ih =>
    rw [write, writeMembers_eq_map]
    exact readsAs_object isGap_nil isGap_nil hkeys fun x hx => (ih x hx).member isGap_nil x.1

/-- A text that reads as a value spells it. -/
theorem ReadsAs.exists_spells {text : String} {j : Json} (h : ReadsAs text.toList j) :
    ∃ d, Draft.ofText text = (d, true) ∧ d.Spells j := by
  obtain ⟨ms, hcut, hdraft⟩ := h
  have hmarks : marks text.toList = ms := by
    have hms := hcut [] nofun
    rwa [List.append_nil, marks, List.append_nil] at hms
  obtain ⟨d, hd, hspells⟩ := hdraft (ms.length + 1) [] (Nat.le_succ _)
  rw [List.append_nil] at hd
  refine ⟨d, ?_, hspells⟩
  simp only [Draft.ofText, hmarks, hd]
  rfl

end StackEditor.Json
