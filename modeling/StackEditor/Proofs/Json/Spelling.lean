import StackEditor.Json.Draft
import StackEditor.Proofs.Lookup

/-!
# What a draft spells

A draft without any flaw, in which no object has a key twice, spells one value (`Draft.Spells`).
Every reader goes through such a draft to its end, also the one that passes it over (`skip`), and
what the reader of values finds in a text without repeated keys is what the text spells
(`exists_spells_of_parse`).

A number or a string is judged twice: once where it is needed, and once where it is passed over. The
second judgement is the milder one. That is not so of any draft, but it is so of those that come
from a text (`Draft.Sound`), and it is carried from the characters over the marks to the drafts.
-/

namespace StackEditor.Json

/-! ## Answers that succeed -/

section
variable {α β : Type}

@[simp] theorem pure_eq_ok (a : α) : (pure a : Except Fault α) = .ok a := rfl

@[simp] theorem throw_eq_error (f : Fault) : (throw f : Except Fault α) = .error f := rfl

/-- Two steps succeed if the first one does and the second one does with its answer. -/
theorem bind_eq_ok {x : Except Fault α} {f : α → Except Fault β} {b : β} :
    x >>= f = .ok b ↔ ∃ a, x = .ok a ∧ f a = .ok b := by
  cases x <;> simp [bind, Except.bind]

/-- An answer that is changed succeeds if it did before. -/
theorem map_eq_ok {x : Except Fault α} {f : α → β} {b : β} :
    x.map f = .ok b ↔ ∃ a, x = .ok a ∧ f a = b := by
  cases x <;> simp [Except.map]

end

/-! ## Drafts without repeated keys -/

/-- The keys of the members, as far as they can be read. -/
def Members.keys : Members → List String
  | .member k _ ms => k.content.toOption.toList ++ ms.keys
  | _ => []

mutual

/-- No object in the draft has a key twice. -/
def Draft.keysOnce : Draft → Bool
  | .array is => is.keysOnce
  | .object ms => decide ms.keys.Nodup && ms.keysOnce
  | _ => true

def Items.keysOnce : Items → Bool
  | .item d is => d.keysOnce && is.keysOnce
  | _ => true

def Members.keysOnce : Members → Bool
  | .member _ d ms => d.keysOnce && ms.keysOnce
  | _ => true

end

/-- No object in the text has a key twice. -/
def keysOnce (text : String) : Bool := (Draft.ofText text).1.keysOnce

/-! ## Spelling -/

mutual

/-- The draft is one of the value, without a flaw and without repeated keys. -/
inductive Draft.Spells : Draft → Json → Prop
  | literal (w : Literal) : Draft.Spells (.literal (.ok w)) w.value
  | number {n : Numeral} {m : Number} {width : Nat} (hnumber : n.number = .ok m)
      (hwidth : n.width = .ok width) : Draft.Spells (.number n) (.number m)
  | string {q : Quoted} {s : String} {width : Nat} (hcontent : q.content = .ok s)
      (hwidth : q.width = .ok width) : Draft.Spells (.string q) (.string s)
  | array {is : Items} {js : List Json} (hitems : Items.Spells is js) :
      Draft.Spells (.array is) (.array js)
  | object {ms : Members} {xs : List (String × Json)} (hmembers : Members.Spells ms xs)
      (hkeys : (xs.map (·.1)).Nodup) : Draft.Spells (.object ms) (.object xs)

inductive Items.Spells : Items → List Json → Prop
  | closed : Items.Spells .closed []
  | item {d : Draft} {v : Json} {is : Items} {js : List Json} (hd : Draft.Spells d v)
      (his : Items.Spells is js) : Items.Spells (.item d is) (v :: js)

inductive Members.Spells : Members → List (String × Json) → Prop
  | closed : Members.Spells .closed []
  | member {k : Quoted} {key : String} {width : Nat} {d : Draft} {v : Json} {ms : Members}
      {xs : List (String × Json)} (hkey : k.content = .ok key) (hwidth : k.width = .ok width)
      (hd : Draft.Spells d v) (hms : Members.Spells ms xs) :
      Members.Spells (.member k d ms) ((key, v) :: xs)

end

mutual

/-- A draft of a value can be passed over. -/
theorem Draft.Spells.skip : ∀ {d : Draft} {v : Json}, d.Spells v → d.skip = .ok ()
  | _, _, .literal _ => rfl
  | _, _, .number _ hwidth => by simp [Draft.skip, hwidth, Except.map]
  | _, _, .string _ hwidth => by simp [Draft.skip, hwidth, Except.map]
  | _, _, .array hitems => hitems.skip
  | _, _, .object hmembers _ => hmembers.skip

/-- A reader passes over the items that spell values. -/
theorem Items.Spells.skip : ∀ {is : Items} {js : List Json}, is.Spells js → is.skip = .ok ()
  | _, _, .closed => rfl
  | _, _, .item hd his => by
    rw [Items.skip, hd.skip]
    exact his.skip

/-- A reader passes over the members that spell values. -/
theorem Members.Spells.skip : ∀ {ms : Members} {xs : List (String × Json)}, ms.Spells xs →
    ms.skip = .ok ()
  | _, _, .closed => rfl
  | _, _, .member _ hwidth hd hms => by
    rw [Members.skip, hwidth, hd.skip]
    exact hms.skip

end

/-- No object in the value has a key twice. -/
inductive KeysOnce : Json → Prop
  | null : KeysOnce .null
  | bool (b : Bool) : KeysOnce (.bool b)
  | number (n : Number) : KeysOnce (.number n)
  | string (s : String) : KeysOnce (.string s)
  | array {js : List Json} (hitems : ∀ j ∈ js, KeysOnce j) : KeysOnce (.array js)
  | object {xs : List (String × Json)} (hkeys : (xs.map (·.1)).Nodup)
      (hmembers : ∀ x ∈ xs, KeysOnce x.2) : KeysOnce (.object xs)

mutual

/-- A value that is spelled has no key twice in any object. -/
theorem Draft.Spells.keysOnce : ∀ {d : Draft} {v : Json}, d.Spells v → v.KeysOnce
  | _, _, .literal .null => .null
  | _, _, .literal (.bool b) => .bool b
  | _, _, .number _ _ => .number _
  | _, _, .string _ _ => .string _
  | _, _, .array hitems => .array hitems.keysOnce
  | _, _, .object hmembers hkeys => .object hkeys hmembers.keysOnce

/-- Values that items spell have no key twice. -/
theorem Items.Spells.keysOnce : ∀ {is : Items} {js : List Json}, is.Spells js →
    ∀ j ∈ js, j.KeysOnce
  | _, _, .closed => by simp
  | _, _, .item hd his => List.forall_mem_cons.mpr ⟨hd.keysOnce, his.keysOnce⟩

/-- Values that members spell have no key twice. -/
theorem Members.Spells.keysOnce : ∀ {ms : Members} {xs : List (String × Json)}, ms.Spells xs →
    ∀ x ∈ xs, x.2.KeysOnce
  | _, _, .closed => by simp
  | _, _, .member _ _ hd hms => List.forall_mem_cons.mpr ⟨hd.keysOnce, hms.keysOnce⟩

end

/-! ## Values that are read -/

mutual

/-- The value of a draft has no key twice in any object, also where the draft has one twice. -/
theorem Draft.keysOnce_of_value : ∀ {d : Draft} {levels : Nat} {v : Json},
    d.value levels = .ok v → v.KeysOnce
  | .absent, _, _, h | .stray, _, _, h => by simp [Draft.value] at h
  | .literal w, _, _, h => by
    rw [Draft.value, map_eq_ok] at h
    obtain ⟨l, -, rfl⟩ := h
    cases l with
    | null => exact .null
    | bool b => exact .bool b
  | .number n, _, _, h => by
    rw [Draft.value, map_eq_ok] at h
    obtain ⟨m, -, rfl⟩ := h
    exact .number m
  | .string q, _, _, h => by
    rw [Draft.value, map_eq_ok] at h
    obtain ⟨s, -, rfl⟩ := h
    exact .string s
  | .array is, 0, _, h | .object ms, 0, _, h => by simp [Draft.value] at h
  | .array is, _ + 1, _, h => by
    rw [Draft.value, map_eq_ok] at h
    obtain ⟨js, hitems, rfl⟩ := h
    exact .array (Items.keysOnce_of_values hitems)
  | .object ms, _ + 1, _, h => by
    rw [Draft.value, map_eq_ok] at h
    obtain ⟨xs, hmembers, rfl⟩ := h
    obtain ⟨hkeys, hvalues⟩ := Members.keysOnce_of_values hmembers
    exact .object hkeys hvalues

/-- Whatever the draft, the items that are read have no key twice. -/
theorem Items.keysOnce_of_values : ∀ {is : Items} {levels : Nat} {js : List Json},
    is.values levels = .ok js → ∀ j ∈ js, j.KeysOnce
  | .closed, _, _, h => by
    cases h
    simp
  | .cut _, _, _, h => by simp [Items.values] at h
  | .item d is, _, _, h => by
    simp only [Items.values, bind_eq_ok] at h
    obtain ⟨v, hd, js, his, h⟩ := h
    cases h
    exact List.forall_mem_cons.mpr ⟨Draft.keysOnce_of_value hd, Items.keysOnce_of_values his⟩

/-- Whatever the draft, a key that comes again replaces the member: the members that are read have
keys of their own, and no key twice inside. -/
theorem Members.keysOnce_of_values : ∀ {ms : Members} {levels : Nat} {xs : List (String × Json)},
    ms.values levels = .ok xs → (xs.map (·.1)).Nodup ∧ ∀ x ∈ xs, x.2.KeysOnce
  | .closed, _, _, h => by
    cases h
    simp
  | .cut _, _, _, h | .keyless _, _, _, h => by simp [Members.values] at h
  | .member k d ms, _, _, h => by
    simp only [Members.values, bind_eq_ok] at h
    obtain ⟨key, -, v, hd, xs, hms, h⟩ := h
    obtain ⟨hkeys, hvalues⟩ := Members.keysOnce_of_values hms
    cases hlater : xs.lookup key with
    | some j =>
      obtain rfl : xs = _ := by simpa [hlater] using h
      exact ⟨hkeys, hvalues⟩
    | none =>
      obtain rfl : (key, v) :: xs = _ := by simpa [hlater] using h
      have hnew : key ∉ xs.map (·.1) := fun hmem => by
        obtain ⟨x, hx, rfl⟩ := List.mem_map.mp hmem
        exact absurd (lookup_of_mem hkeys hx) (by simp [hlater])
      exact ⟨List.nodup_cons.mpr ⟨hnew, hkeys⟩,
        List.forall_mem_cons.mpr ⟨Draft.keysOnce_of_value hd, hvalues⟩⟩

end

/-- A value that is read from a text has no key twice. -/
theorem keysOnce_of_parse {text : String} {v : Json} (h : parse text = .ok v) : v.KeysOnce := by
  rw [parse, finish, bind_eq_ok] at h
  obtain ⟨v', hvalue, h⟩ := h
  cases hwhole : (Draft.ofText text).2 with
  | false => simp [hwhole] at h
  | true =>
    obtain rfl : v' = v := by simpa [hwhole] using h
    exact Draft.keysOnce_of_value hvalue

/-! ## The two judgements on a number and on a string -/

/-- A number that may be used may be passed over. -/
def Numeral.Sound (n : Numeral) : Prop := ∀ m, n.number = .ok m → ∃ width, n.width = .ok width

/-- A string that may be used may be passed over. -/
def Quoted.Sound (q : Quoted) : Prop := ∀ s, q.content = .ok s → ∃ width, q.width = .ok width

/-- A number that is read from a text can be passed over if it can be read. -/
theorem Numeral.ofText_sound (cs : List Char) : (Numeral.ofText cs).Sound := by
  intro m hm
  unfold Numeral.ofText at hm ⊢
  cases hspell : spell cs with
  | ok s => exact ⟨s.width, rfl⟩
  | error f => simp [hspell] at hm

/-- The second half of a pair is an escape of its own. -/
theorem skipEscape_of_readTrail {lead : Nat} {cs : List Char} {d : Char}
    (h : readTrail lead cs = .ok d) :
    ∃ tail, cs = '\\' :: tail ∧ skipEscape tail = .ok 5 := by
  fun_cases readTrail lead cs with
  | case1 | case2 | case4 => simp [readTrail] at h
  | case3 rest =>
    rw [readTrail, bind_eq_ok] at h
    obtain ⟨n, hunit, -⟩ := h
    exact ⟨'u' :: rest, rfl, by rw [skipEscape, hunit]; rfl⟩

/-- An escape that stands for a character is passed over in one step, or it is a surrogate pair,
whose halves are passed over one after the other. -/
theorem skipEscape_of_readEscape {rest : List Char} {d : Char} {n : Nat}
    (h : readEscape rest = .ok (d, n)) :
    skipEscape rest = .ok n ∨
      skipEscape rest = .ok 5 ∧ ∃ tail, rest.drop 5 = '\\' :: tail ∧
        skipEscape tail = .ok 5 ∧ rest.drop n = tail.drop 5 := by
  fun_cases readEscape rest with
  | case1 => cases h
  | case2 rest =>
    rw [readEscape, bind_eq_ok] at h
    obtain ⟨m, hunit, h⟩ := h
    have hskip : skipEscape ('u' :: rest) = .ok 5 := by rw [skipEscape, hunit]; rfl
    by_cases htrail : isTrail m
    · simp [htrail] at h
    · by_cases hlead : isLead m
      · simp only [htrail, hlead, Bool.false_eq_true, if_true, if_false, bind_eq_ok] at h
        obtain ⟨c, hpair, h⟩ := h
        obtain ⟨tail, hrest, htail⟩ := skipEscape_of_readTrail hpair
        obtain ⟨-, rfl⟩ : c = d ∧ 11 = n := by simpa using h
        have hdrop : (rest.drop 4).drop 6 = ('\\' :: tail).drop 6 := by rw [hrest]
        exact .inr ⟨hskip, tail, hrest, htail, by simpa using hdrop⟩
      · obtain ⟨-, rfl⟩ : Char.ofNat m = d ∧ 5 = n := by simpa [htrail, hlead] using h
        exact .inl hskip
  | case3 c rest hu e hshort =>
    simp only [readEscape, hshort] at h
    simp only [skipEscape, hshort]
    obtain ⟨-, rfl⟩ : e = d ∧ 1 = n := by simpa using h
    exact .inl rfl
  | case4 c rest hu hshort => simp [readEscape, hshort] at h

/-- Behind a backslash an escape is passed over, and then the rest of the string. -/
theorem quotedWidth_escape {cs : List Char} {n width : Nat} (hskip : skipEscape cs = .ok n)
    (hrest : quotedWidth (cs.drop n) = .ok width) :
    quotedWidth ('\\' :: cs) = .ok (n + 1 + width) := by
  rw [quotedWidth, if_neg (by decide), if_pos rfl, hskip]
  simp [bind, Except.bind, hrest]

/-- A string that can be read has an end. -/
theorem exists_quotedWidth {cs ds : List Char} (h : readQuoted cs = .ok ds) :
    ∃ width, quotedWidth cs = .ok width := by
  fun_induction readQuoted cs generalizing ds with
  | case1 => cases h
  | case2 rest => exact ⟨1, by simp [quotedWidth]⟩
  | case3 rest hquote ih =>
    obtain ⟨⟨d, n⟩, hescape, h⟩ := bind_eq_ok.mp h
    obtain ⟨ds, hrest, -⟩ := bind_eq_ok.mp h
    obtain ⟨width, hwidth⟩ := ih n hrest
    rcases skipEscape_of_readEscape hescape with hskip | ⟨hskip, tail, hdrop, htail, hn⟩
    · exact ⟨_, quotedWidth_escape hskip hwidth⟩
    · exact ⟨_, quotedWidth_escape hskip (hdrop ▸ quotedWidth_escape htail (hn ▸ hwidth))⟩
  | case4 => cases h
  | case5 c rest hquote hescape hcontrol ih =>
    obtain ⟨ds, hrest, -⟩ := bind_eq_ok.mp h
    obtain ⟨width, hwidth⟩ := ih hrest
    exact ⟨1 + width, by simp [quotedWidth, hquote, hescape, hcontrol, hwidth, bind, Except.bind]⟩

/-- A string that is read from a text can be passed over if it can be read. -/
theorem Quoted.ofText_sound (cs : List Char) : (Quoted.ofText cs).Sound := by
  intro s hs
  cases hread : readQuoted cs with
  | ok ds => exact exists_quotedWidth hread
  | error f => simp [Quoted.ofText, hread, Except.map] at hs

/-! ## Marks and drafts of a text -/

/-- The mark keeps its promise if it is a number or a string. -/
def Mark.Sound : Mark → Prop
  | .number n => n.Sound
  | .string q => q.Sound
  | _ => True

/-- Punctuation needs no judgement. -/
theorem punctuation?_sound {c : Char} {m : Mark} (h : punctuation? c = some m) : m.Sound := by
  unfold punctuation? at h
  split at h <;> cases h <;> trivial

/-- The first mark of a text is sound, whatever it is. -/
theorem firstMark_sound (c : Char) (rest : List Char) : (firstMark c rest).1.Sound := by
  fun_cases firstMark c rest with
  | case1 m hm => exact punctuation?_sound hm
  | case2 => exact Quoted.ofText_sound rest
  | case3 => exact Numeral.ofText_sound (c :: rest)
  | case4 | case5 | case6 => trivial

/-- All marks of a text are sound. -/
theorem marks_sound (cs : List Char) : ∀ m ∈ marks cs, m.Sound := by
  fun_induction marks cs with
  | case1 => simp
  | case2 c rest hspace ih => exact ih
  | case3 c rest hspace m hm =>
    have hfirst := firstMark_sound c rest
    rw [hm] at hfirst
    simpa using hfirst
  | case4 c rest hspace m n hm ih =>
    have hfirst := firstMark_sound c rest
    rw [hm] at hfirst
    exact List.forall_mem_cons.mpr ⟨hfirst, ih⟩

mutual

/-- Every number and every string in the draft is sound. -/
def Draft.Sound : Draft → Prop
  | .number n => n.Sound
  | .string q => q.Sound
  | .array is => is.Sound
  | .object ms => ms.Sound
  | _ => True

def Items.Sound : Items → Prop
  | .item d is => d.Sound ∧ is.Sound
  | _ => True

def Members.Sound : Members → Prop
  | .member k d ms => k.Sound ∧ d.Sound ∧ ms.Sound
  | _ => True

end

/-- The marks are all sound. -/
def Mark.AllSound (ms : List Mark) : Prop := ∀ m ∈ ms, m.Sound

/-- Behind the first of them, sound marks are sound. -/
theorem Mark.AllSound.tail {m : Mark} {ms : List Mark} (h : Mark.AllSound (m :: ms)) :
    Mark.AllSound ms :=
  fun x hx => h x (.tail m hx)

/-- No marks are sound. -/
theorem Mark.allSound_nil : Mark.AllSound [] := by simp [Mark.AllSound]

/-- A draft made of one sound mark is sound. -/
theorem Mark.leaf_sound {m : Mark} (h : m.Sound) : m.leaf.Sound := by
  cases m <;> exact h

/-- Within `n` levels, sound marks make sound drafts and leave sound marks. -/
structure SoundWithin (n : Nat) : Prop where
  draft : ∀ {ms}, Mark.AllSound ms → (draftOf n ms).1.Sound ∧ Mark.AllSound (draftOf n ms).2
  items : ∀ {ms}, Mark.AllSound ms → (moreItems n ms).1.Sound ∧ Mark.AllSound (moreItems n ms).2
  member : ∀ {ms}, Mark.AllSound ms → (memberOf n ms).1.Sound ∧ Mark.AllSound (memberOf n ms).2
  members : ∀ {ms}, Mark.AllSound ms →
    (moreMembers n ms).1.Sound ∧ Mark.AllSound (moreMembers n ms).2

-- The four functions call each other one level down, so each of them is taken up with the level
-- below as a hypothesis; the induction on the levels comes last.
section
variable {n : Nat} (h : ∀ k, n = k + 1 → SoundWithin k) {ms : List Mark}
include h

/-- The draft that is read from sound marks is sound, and sound marks are left. -/
theorem draftOf_sound (hms : Mark.AllSound ms) :
    (draftOf n ms).1.Sound ∧ Mark.AllSound (draftOf n ms).2 := by
  fun_cases draftOf n ms with
  | case1 => exact ⟨trivial, hms⟩
  | case2 | case3 => exact ⟨trivial, Mark.allSound_nil⟩
  | case4 => exact ⟨trivial, hms.tail.tail⟩
  | case5 n ms _ _ d rest hd is rest' his =>
    have hdraft := (h n rfl).draft hms.tail
    rw [hd] at hdraft
    have hitems := (h n rfl).items hdraft.2
    rw [his] at hitems
    exact ⟨⟨hdraft.1, hitems.1⟩, hitems.2⟩
  | case6 => exact ⟨trivial, hms.tail.tail⟩
  | case7 n ms _ xs rest hxs =>
    have hmember := (h n rfl).member hms.tail
    rw [hxs] at hmember
    exact hmember
  | case8 n ms m => exact ⟨Mark.leaf_sound (hms m (by simp)), hms.tail⟩

/-- The items that are read from sound marks are sound, and sound marks are left. -/
theorem moreItems_sound (hms : Mark.AllSound ms) :
    (moreItems n ms).1.Sound ∧ Mark.AllSound (moreItems n ms).2 := by
  fun_cases moreItems n ms with
  | case1 | case2 => exact ⟨trivial, hms⟩
  | case3 | case5 => exact ⟨trivial, hms.tail⟩
  | case4 n ms d rest hd is rest' his =>
    have hdraft := (h n rfl).draft hms.tail
    rw [hd] at hdraft
    have hitems := (h n rfl).items hdraft.2
    rw [his] at hitems
    exact ⟨⟨hdraft.1, hitems.1⟩, hitems.2⟩

/-- The member that is read from sound marks is sound, and so are the members behind it. -/
theorem memberOf_sound (hms : Mark.AllSound ms) :
    (memberOf n ms).1.Sound ∧ Mark.AllSound (memberOf n ms).2 := by
  fun_cases memberOf n ms with
  | case1 => exact ⟨trivial, hms⟩
  | case2 n q => exact ⟨⟨hms (.string q) (by simp), trivial, trivial⟩, Mark.allSound_nil⟩
  | case3 n q ms d rest hd xs rest' hxs =>
    have hdraft := (h n rfl).draft hms.tail.tail
    rw [hd] at hdraft
    have hmembers := (h n rfl).members hdraft.2
    rw [hxs] at hmembers
    exact ⟨⟨hms (.string q) (by simp), hdraft.1, hmembers.1⟩, hmembers.2⟩
  | case4 n q ms => exact ⟨⟨hms (.string q) (by simp), trivial, trivial⟩, hms.tail⟩
  | case5 n ms _ _ _ d rest hd =>
    have hdraft := (h n rfl).draft hms
    rw [hd] at hdraft
    exact ⟨trivial, hdraft.2⟩

/-- The members that are read from sound marks are sound, and sound marks are left. -/
theorem moreMembers_sound (hms : Mark.AllSound ms) :
    (moreMembers n ms).1.Sound ∧ Mark.AllSound (moreMembers n ms).2 := by
  fun_cases moreMembers n ms with
  | case1 | case2 => exact ⟨trivial, hms⟩
  | case3 | case5 => exact ⟨trivial, hms.tail⟩
  | case4 n ms => exact (h n rfl).member hms.tail

end

/-- Sound marks make sound drafts, however deep they nest. -/
theorem soundWithin (n : Nat) : SoundWithin n := by
  have step {n : Nat} (h : ∀ k, n = k + 1 → SoundWithin k) : SoundWithin n :=
    ⟨draftOf_sound h, moreItems_sound h, memberOf_sound h, moreMembers_sound h⟩
  induction n with
  | zero => exact step (by simp)
  | succ n ih => exact step fun k hk => by cases hk; exact ih

/-- The draft of a text is sound. -/
theorem Draft.ofText_sound (text : String) : (Draft.ofText text).1.Sound :=
  ((soundWithin _).draft (marks_sound text.toList)).1

/-! ## From values to spellings -/

mutual

/-- A draft of a text that has a value is one of that value. -/
theorem Draft.spells_of_value : ∀ {d : Draft} {levels : Nat} {v : Json}, d.Sound →
    d.keysOnce = true → d.value levels = .ok v → d.Spells v
  | .absent, _, _, _, _, h => by simp [Draft.value] at h
  | .stray, _, _, _, _, h => by simp [Draft.value] at h
  | .literal w, _, _, _, _, h => by
    rw [Draft.value, map_eq_ok] at h
    obtain ⟨l, rfl, rfl⟩ := h
    exact .literal l
  | .number n, _, _, hsound, _, h => by
    rw [Draft.value, map_eq_ok] at h
    obtain ⟨m, hnumber, rfl⟩ := h
    obtain ⟨width, hwidth⟩ := hsound m hnumber
    exact .number hnumber hwidth
  | .string q, _, _, hsound, _, h => by
    rw [Draft.value, map_eq_ok] at h
    obtain ⟨s, hcontent, rfl⟩ := h
    obtain ⟨width, hwidth⟩ := hsound s hcontent
    exact .string hcontent hwidth
  | .array is, 0, _, _, _, h => by simp [Draft.value] at h
  | .array is, _ + 1, _, hsound, hkeys, h => by
    rw [Draft.value, map_eq_ok] at h
    obtain ⟨js, hitems, rfl⟩ := h
    exact .array (Items.spells_of_values hsound hkeys hitems)
  | .object ms, 0, _, _, _, h => by simp [Draft.value] at h
  | .object ms, _ + 1, _, hsound, hkeys, h => by
    rw [Draft.value, map_eq_ok] at h
    obtain ⟨xs, hmembers, rfl⟩ := h
    obtain ⟨hnodup, hkeys⟩ : ms.keys.Nodup ∧ ms.keysOnce = true := by
      simpa [Draft.keysOnce] using hkeys
    obtain ⟨hspells, hxs⟩ := Members.spells_of_values hsound hkeys hnodup hmembers
    exact .object hspells (hxs ▸ hnodup)

/-- Sound items without repeated keys spell the values that are read from them. -/
theorem Items.spells_of_values : ∀ {is : Items} {levels : Nat} {js : List Json}, is.Sound →
    is.keysOnce = true → is.values levels = .ok js → is.Spells js
  | .closed, _, _, _, _, h => by
    cases h
    exact .closed
  | .cut _, _, _, _, _, h => by simp [Items.values] at h
  | .item d is, _, _, hsound, hkeys, h => by
    simp only [Items.values, bind_eq_ok] at h
    obtain ⟨v, hd, js, his, h⟩ := h
    cases h
    obtain ⟨hdkeys, hiskeys⟩ : d.keysOnce = true ∧ is.keysOnce = true := by
      simpa [Items.keysOnce] using hkeys
    exact .item (Draft.spells_of_value hsound.1 hdkeys hd)
      (Items.spells_of_values hsound.2 hiskeys his)

/-- Sound members without repeated keys spell the members that are read from them, under the same
keys. -/
theorem Members.spells_of_values : ∀ {ms : Members} {levels : Nat} {xs : List (String × Json)},
    ms.Sound → ms.keysOnce = true → ms.keys.Nodup → ms.values levels = .ok xs →
    ms.Spells xs ∧ xs.map (·.1) = ms.keys
  | .closed, _, _, _, _, _, h => by
    cases h
    exact ⟨.closed, rfl⟩
  | .cut _, _, _, _, _, _, h => by simp [Members.values] at h
  | .keyless _, _, _, _, _, _, h => by simp [Members.values] at h
  | .member k d ms, _, _, hsound, hkeys, hnodup, h => by
    simp only [Members.values, bind_eq_ok] at h
    obtain ⟨key, hkey, v, hd, xs, hms, h⟩ := h
    obtain ⟨width, hwidth⟩ := hsound.1 key hkey
    obtain ⟨hdkeys, hmskeys⟩ : d.keysOnce = true ∧ ms.keysOnce = true := by
      simpa [Members.keysOnce] using hkeys
    have hcons : (Members.member k d ms).keys = key :: ms.keys := by
      simp [Members.keys, hkey, Except.toOption]
    rw [hcons, List.nodup_cons] at hnodup
    obtain ⟨hspells, hxs⟩ := Members.spells_of_values hsound.2.2 hmskeys hnodup.2 hms
    -- The reader of values drops a member whose key comes again, and this one does not.
    have hnew : xs.lookup key = none := lookup_eq_none_iff.mpr (hxs ▸ hnodup.1)
    simp only [hnew, Option.isSome_none, Bool.false_eq_true, if_false] at h
    cases h
    exact ⟨.member hkey hwidth (Draft.spells_of_value hsound.2.1 hdkeys hd) hspells, by
      rw [hcons, ← hxs, List.map_cons]⟩

end

/-- A text without repeated keys that has a value spells it. -/
theorem exists_spells_of_parse {text : String} {v : Json} (h : parse text = .ok v)
    (hkeys : keysOnce text = true) : ∃ d, Draft.ofText text = (d, true) ∧ d.Spells v := by
  rw [parse, finish, bind_eq_ok] at h
  obtain ⟨v', hvalue, h⟩ := h
  cases hwhole : (Draft.ofText text).2 with
  | false => simp [hwhole] at h
  | true =>
    obtain rfl : v' = v := by simpa [hwhole] using h
    refine ⟨(Draft.ofText text).1, by rw [← hwhole], ?_⟩
    exact Draft.spells_of_value (Draft.ofText_sound text) hkeys hvalue

end StackEditor.Json
