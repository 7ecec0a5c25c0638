import StackEditor.Proofs.Analysis.Chunks

/-!
# References in joined sources

Two sources whose brackets match can be checked one by one and then joined, if nothing belongs
together over the seam (`Joinable`). What is unresolved in the joined source is what is unresolved
in one of the two and not defined in the other (`unresolvedIn_joined`): both sides are chunks of the
whole, so parameters and the recursion name stay in their bodies, and definitions alone cross over.
-/

namespace StackEditor

/-! ## Diagnostics further down -/

/-- The range `n` lines further down. -/
def Range.down (n : Nat) (r : Range) : Range := ⟨r.start.down n, r.stop.down n⟩

namespace Diagnostic

/-- The diagnostic `n` lines further down. -/
def down (n : Nat) (d : Diagnostic) : Diagnostic := { d with range := d.range.down n }

@[simp] theorem map_down_zero (ds : List Diagnostic) : ds.map (down 0) = ds :=
  List.map_id' ds

/-- The messages do not depend on the line. -/
theorem map_message_map_down (ds : List Diagnostic) (n : Nat) :
    (ds.map (down n)).map (·.message) = ds.map (·.message) :=
  List.map_map

/-- The name that an unresolved reference is about: the message without the words around it. -/
def unresolvedName (d : Diagnostic) : String :=
  String.ofList (d.message.toList.drop "unresolved reference `".length).dropLast

@[simp] theorem unresolvedName_unresolvedReference (t : Token) :
    (unresolvedReference t).unresolvedName = t.text := by
  unfold unresolvedName unresolvedReference
  simp only [String.toList_append, List.append_assoc]
  rw [← String.length_toList, List.drop_left]
  exact (congrArg String.ofList List.dropLast_concat).trans String.ofList_toList

end Diagnostic

/-! ## Two chunks -/

/-- Tokens that can stand one behind the other: the brackets of both match, and neither a
declaration nor the parameter list or the body that belongs to it reaches from the one to the
other. -/
structure Joinable (a b : List Token) : Prop where
  left : Analysis.checkBrackets a = []
  right : Analysis.checkBrackets b = []
  last : ∀ t ∈ a.getLast?, t.declares? = none
  head : ∀ t ∈ b.head?, t.StartsNoGroup

namespace Joinable

variable {a b : List Token} {x : String} {t : Token} {i m : Nat}

/-- The groups of two chunks that can be joined end. -/
theorem groupsEnd (h : Joinable a b) (m : Nat) : GroupsEnd (a ++ b.map (Token.down m)) :=
  (groupsEnd_of_checkBrackets h.left).append ((groupsEnd_of_checkBrackets h.right).map_down m)

/-- The last token of the first chunk declares nothing. -/
theorem declares?_last (h : Joinable a b) (hi : i + 1 = a.length) (ht : a[i]? = some t) :
    t.declares? = none := by
  refine h.last t ?_
  rw [List.getLast?_eq_getElem?, ← hi]
  exact ht

/-- The first token of the second chunk starts no group. -/
theorem startsNoGroup_first (h : Joinable a b) (ht : b[0]? = some t) : t.StartsNoGroup := by
  refine h.head t ?_
  rw [List.head?_eq_getElem?]
  exact ht

/-- The tokens before the seam are a chunk of the whole. -/
theorem chunk_left (h : Joinable a b) (m : Nat) : Chunk (a ++ b.map (Token.down m)) a 0 0 where
  context := ⟨[], b.map (Token.down m), by simp, rfl⟩
  endsBefore _ _ ho := absurd ho (Nat.not_lt_zero _)
  ends := groupsEnd_of_checkBrackets h.left
  lastBefore _ _ hk := absurd hk (Nat.succ_ne_zero _)
  first hn := absurd hn (Nat.lt_irrefl 0)
  last _ _ hk _ ht := h.declares?_last hk ht
  behind t ht := by
    rw [Nat.zero_add, List.getElem?_append_right (Nat.le_refl _), Nat.sub_self,
      List.getElem?_map] at ht
    obtain ⟨s, hs, rfl⟩ := Option.map_eq_some_iff.1 ht
    have hfirst : s.StartsNoGroup := h.startsNoGroup_first hs
    exact hfirst

/-- The tokens behind the seam are a chunk of the whole. -/
theorem chunk_right (h : Joinable a b) (m : Nat) :
    Chunk (a ++ b.map (Token.down m)) b a.length m where
  context := ⟨a, [], by simp, rfl⟩
  endsBefore pair o _ := by
    unfold between
    rw [List.take_left]
    exact groupsEnd_of_checkBrackets h.left pair o
  ends := groupsEnd_of_checkBrackets h.right
  lastBefore k t hk ht := by
    rw [List.getElem?_append_left (by omega)] at ht
    exact h.declares?_last hk ht
  first _ _ ht := h.startsNoGroup_first ht
  last _ _ _ hlt := by
    rw [List.length_append, List.length_map] at hlt
    exact absurd hlt (Nat.lt_irrefl _)
  behind t ht := by
    have hlt := (List.getElem?_eq_some_iff.1 ht).1
    rw [List.length_append, List.length_map] at hlt
    exact absurd hlt (Nat.lt_irrefl _)

/-- A token of the whole lies on one side of the seam. -/
theorem lt_or_exists_add {k : Nat} (hk : (a ++ b.map (Token.down m))[k]? = some t) :
    k < a.length ∨ ∃ j, k = a.length + j ∧ j < b.length := by
  have hlt := (List.getElem?_eq_some_iff.1 hk).1
  rw [List.length_append, List.length_map] at hlt
  rcases Nat.lt_or_ge k a.length with hleft | hright
  · exact .inl hleft
  · exact .inr ⟨k - a.length, by omega, by omega⟩

/-- The whole defines what one of the two sides defines. -/
theorem defines_iff_or (h : Joinable a b) (m : Nat) :
    Defines (a ++ b.map (Token.down m)) x ↔ Defines a x ∨ Defines b x := by
  have hleft := h.chunk_left m
  have hright := h.chunk_right m
  constructor
  -- A definition is seen at one of its tokens, and that lies on one side.
  · rintro (⟨k, hk⟩ | ⟨s, hs, hkind, htext⟩ | ⟨k, hk⟩)
    · obtain ⟨t, -, ht, -⟩ := id hk
      rcases lt_or_exists_add ht with hlt | ⟨j, rfl, hlt⟩
      · rw [← Nat.zero_add k, hleft.declaresAt_add hlt] at hk
        exact .inl (.inl ⟨k, hk⟩)
      · exact .inr (.inl ⟨j, (hright.declaresAt_add hlt).1 hk⟩)
    · rcases List.mem_append.1 hs with hs | hs
      · exact .inl (.inr (.inl ⟨s, hs, hkind, htext⟩))
      · obtain ⟨t, ht, rfl⟩ := List.mem_map.1 hs
        exact .inr (.inr (.inl ⟨t, ht, hkind, htext⟩))
    · obtain ⟨-, ⟨t, -, ht, -⟩, -⟩ := id hk
      rcases lt_or_exists_add ht with hlt | ⟨j, rfl, hlt⟩
      · rw [← Nat.zero_add k, hleft.bringsForth_add hlt] at hk
        exact .inl (.inr (.inr ⟨k, hk⟩))
      · exact .inr (.inr (.inr ⟨j, (hright.bringsForth_add hlt).1 hk⟩))
  · rintro (hx | hx)
    · exact hleft.defines_of_defines hx
    · exact hright.defines_of_defines hx

end Joinable

/-! ## The reports -/

/-- The reports on `tokens` but those on names that `other` defines. -/
def reportsBeside (builtins : Builtins) (tokens other : List Token) : List Diagnostic :=
  (Analysis.checkReferences tokens (Definitions.collect tokens) builtins).filter fun d =>
    !(Definitions.collect other).defines d.unresolvedName

/-- A reference of a chunk is reported in the whole exactly when it is in the chunk and the other
chunk does not define it. -/
theorem Chunk.isReported_add {whole part other : List Token} {n m i : Nat} {t : Token}
    (h : Chunk whole part n m) (horder : InOrder whole) (hends : GroupsEnd whole)
    (horder' : InOrder part)
    (hdefines : ∀ x, Defines whole x ↔ Defines part x ∨ Defines other x) (builtins : Builtins)
    (ht : part[i]? = some t) :
    Analysis.isReported whole builtins (t.down m) (n + i) =
      (Analysis.isReported part builtins t i && !(Definitions.collect other).defines t.text) := by
  have hwhole : BodiesHold whole := .inr (hends .brace)
  have hpart : BodiesHold part := .inr (h.ends .brace)
  rw [Bool.eq_iff_iff, Bool.and_eq_true, Bool.not_eq_true', ← Bool.not_eq_true,
    isReported_iff horder hwhole builtins (h.token ht), isReported_iff horder' hpart builtins ht,
    defines_iff, h.unaccounted_add builtins ht, hdefines, not_or]
  exact and_congr_right fun hu => and_iff_right hu.undefined

/-- The reports on the tokens of a chunk are its own, without those that are resolved outside. -/
theorem Chunk.reports_add {whole part other : List Token} {n m : Nat}
    (h : Chunk whole part n m) (horder : InOrder whole) (hends : GroupsEnd whole)
    (horder' : InOrder part)
    (hdefines : ∀ x, Defines whole x ↔ Defines part x ∨ Defines other x) (builtins : Builtins) :
    ((((part.map (Token.down m)).zipIdx n).filter fun (t, i) =>
        Analysis.isReported whole builtins t i).map fun (t, _) => .unresolvedReference t) =
      (reportsBeside builtins part other).map (Diagnostic.down m) := by
  have hzip : (part.map (Token.down m)).zipIdx n =
      part.zipIdx.map fun (t, i) => (t.down m, n + i) := by
    rw [List.zipIdx_map, List.zipIdx_eq_map_add, List.map_map]
    rfl
  rw [reportsBeside, checkReferences_eq, hzip, List.filter_map, List.filter_map, List.filter_filter,
    List.map_map, List.map_map]
  congr 1
  refine List.filter_congr fun ⟨t, i⟩ hmem => ?_
  have ht : part[i]? = some t := List.mem_zipIdx_iff_getElem?.1 hmem
  rw [Bool.and_comm]
  simp only [Function.comp_apply, Diagnostic.unresolvedName_unresolvedReference]
  exact h.isReported_add horder hends horder' hdefines builtins ht

/-- The names that are unresolved in a source. -/
def unresolvedIn (builtins : Builtins) (source : String) : List Diagnostic :=
  Analysis.checkReferences (tokenize source) (Definitions.collect (tokenize source)) builtins

/-- Two sources with a newline between them. -/
theorem unresolvedIn_newline (builtins : Builtins) {a b : String}
    (h : Joinable (tokenize a) (tokenize b)) :
    unresolvedIn builtins (a ++ "\n" ++ b) =
      reportsBeside builtins (tokenize a) (tokenize b) ++
        (reportsBeside builtins (tokenize b) (tokenize a)).map
          (Diagnostic.down (1 + a.toList.count '\n')) := by
  have horder := inOrder_tokenize (a ++ "\n" ++ b)
  unfold unresolvedIn
  rw [tokenize_newline] at horder ⊢
  generalize 1 + a.toList.count '\n' = m at horder ⊢
  have hends := h.groupsEnd m
  have hleft := (h.chunk_left m).reports_add horder hends (inOrder_tokenize a)
    (fun x => h.defines_iff_or m) builtins
  have hright := (h.chunk_right m).reports_add horder hends (inOrder_tokenize b)
    (fun x => (h.defines_iff_or m).trans or_comm) builtins
  rw [Token.map_down_zero, Diagnostic.map_down_zero] at hleft
  rw [← hleft, ← hright, checkReferences_eq, List.zipIdx_append, Nat.zero_add, List.filter_append,
    List.map_append]

/-- Sources that can be joined are checked one by one: each has the reports that it has alone,
without those on names that the other defines. Where they can be joined in both orders, the order
decides on nothing but where the reports stand. -/
theorem unresolvedIn_joined (builtins : Builtins) (a b : String)
    (h : Joinable (tokenize a) (tokenize b)) :
    unresolvedIn builtins (a ++ "\n" ++ b) =
        reportsBeside builtins (tokenize a) (tokenize b) ++
          (reportsBeside builtins (tokenize b) (tokenize a)).map
            (Diagnostic.down (1 + a.toList.count '\n')) ∧
    (Joinable (tokenize b) (tokenize a) →
      unresolvedIn builtins (b ++ "\n" ++ a) =
          reportsBeside builtins (tokenize b) (tokenize a) ++
            (reportsBeside builtins (tokenize a) (tokenize b)).map
              (Diagnostic.down (1 + b.toList.count '\n')) ∧
        ((unresolvedIn builtins (a ++ "\n" ++ b)).map (·.message)).Perm
          ((unresolvedIn builtins (b ++ "\n" ++ a)).map (·.message))) := by
  have hab := unresolvedIn_newline builtins h
  refine ⟨hab, fun h' => ?_⟩
  have hba := unresolvedIn_newline builtins h'
  refine ⟨hba, ?_⟩
  rw [hab, hba, List.map_append, List.map_append, Diagnostic.map_message_map_down,
    Diagnostic.map_message_map_down]
  exact List.perm_append_comm

/-- Each of two functions calls the other one, and a parameter is used behind its body. -/
theorem mutualCalls_joined :
    (Joinable (tokenize "fn f ( x ) \x7b g x \x7d") (tokenize "fn g \x7b f recur \x7d x") ∧
      Joinable (tokenize "fn g \x7b f recur \x7d x") (tokenize "fn f ( x ) \x7b g x \x7d")) ∧
    unresolvedIn .empty ("fn f ( x ) \x7b g x \x7d" ++ "\n" ++ "fn g \x7b f recur \x7d x") =
      [.unresolvedReference ⟨.reference, "x", 1, 17, 18⟩] ∧
    unresolvedIn .empty ("fn g \x7b f recur \x7d x" ++ "\n" ++ "fn f ( x ) \x7b g x \x7d") =
      [.unresolvedReference ⟨.reference, "x", 0, 17, 18⟩] := by
  have h : Joinable (tokenize "fn f ( x ) \x7b g x \x7d")
      (tokenize "fn g \x7b f recur \x7d x") :=
    ⟨by decide +kernel, by decide +kernel, by decide +kernel, by decide +kernel⟩
  have h' : Joinable (tokenize "fn g \x7b f recur \x7d x")
      (tokenize "fn f ( x ) \x7b g x \x7d") :=
    ⟨by decide +kernel, by decide +kernel, by decide +kernel, by decide +kernel⟩
  obtain ⟨hab, hba⟩ := unresolvedIn_joined .empty _ _ h
  exact ⟨⟨h, h'⟩, hab.trans (by decide +kernel), (hba h').1.trans (by decide +kernel)⟩

end StackEditor
