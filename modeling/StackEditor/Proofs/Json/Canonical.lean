import StackEditor.Proofs.Json.Reading
import StackEditor.Proofs.Json.Writing

/-!
# Values in their canonical form

A value is in the canonical form of a schema if a record in it is an object with all of its fields
in order, and a number, an identifier or a variant is written in the one way that writing has
(`Schema.Canonical`). Such a value is accepted as it is, and its text spells it, so the text is
read as the value, in either layout (`Schema.Canonical.readText_pretty`,
`Schema.Canonical.readText_compact`).

A typed value survives its JSON form if that form is canonical and stands for the value
(`Serial.Faithful`).
-/

namespace StackEditor.Json

mutual

/-- The value has the form, in the one spelling that is written. -/
inductive Schema.Canonical : Schema → Json → Prop
  | bool (b : Bool) : Schema.Canonical .bool (.bool b)
  | natural {limit n : Nat} (hn : n ≤ limit) (hlimit : limit ≤ maxWord64) :
      Schema.Canonical (.natural limit) (.natural n)
  | string (s : String) : Schema.Canonical .string (.string s)
  | identifier {n : Nat} (hn : uuidOfText? (uuidText n) = some n) :
      Schema.Canonical .identifier (.string (uuidText n))
  | null (s : Schema) : Schema.Canonical (.optional s) .null
  | optional {s : Schema} {v : Json} (hv : Schema.Canonical s v) : Schema.Canonical (.optional s) v
  | list {s : Schema} {vs : List Json} (hvs : ∀ v ∈ vs, Schema.Canonical s v) :
      Schema.Canonical (.list s) (.array vs)
  | plain {vs : Variants} {name : String} (hname : vs.isPlain name = true) :
      Schema.Canonical (.choice vs) (.string name)
  | tagged {vs : Variants} {name : String} {v : Json} (hv : Variants.Canonical vs name v) :
      Schema.Canonical (.choice vs) (.object [(name, v)])
  | record {fs : Fields} {xs : List (String × Json)} (hnames : fs.names.Nodup)
      (hxs : Fields.Canonical fs xs) : Schema.Canonical (.record fs) (.object xs)

/-- The first variant with the name has a value of this form. -/
inductive Variants.Canonical : Variants → String → Json → Prop
  | first {name : String} {s : Schema} {v : Json} {rest : Variants} (hv : Schema.Canonical s v) :
      Variants.Canonical (.tagged name s rest) name v
  | behindPlain {n name : String} {v : Json} {rest : Variants} (hn : n ≠ name)
      (hv : Variants.Canonical rest name v) : Variants.Canonical (.plain n rest) name v
  | behindTagged {n name : String} {s : Schema} {v : Json} {rest : Variants} (hn : n ≠ name)
      (hv : Variants.Canonical rest name v) : Variants.Canonical (.tagged n s rest) name v

/-- The members are the fields, in order. -/
inductive Fields.Canonical : Fields → List (String × Json) → Prop
  | none : Fields.Canonical .none []
  | field {name : String} {s : Schema} {missing : Missing} {v : Json} {rest : Fields}
      {xs : List (String × Json)} (hv : Schema.Canonical s v) (hxs : Fields.Canonical rest xs) :
      Fields.Canonical (.field name s missing rest) ((name, v) :: xs)

end

/-- The keys of canonical members are the names of the fields, in order. -/
theorem Fields.Canonical.keys_eq_names {fs : Fields} : ∀ {xs : List (String × Json)},
    fs.Canonical xs → xs.map (·.1) = fs.names
  | _, .none => rfl
  | _, .field _ hxs => by rw [Fields.names, List.map_cons, hxs.keys_eq_names]

mutual

/-- What is canonical can be read back. -/
theorem Schema.Canonical.toPlain : ∀ {s : Schema} {v : Json}, s.Canonical v → v.Plain
  | _, _, .bool b => .bool b
  | _, _, .natural hn hlimit => .natural (Nat.le_trans hn hlimit)
  | _, _, .string s => .string s
  | _, _, .identifier _ => .string _
  | _, _, .null _ => .null
  | _, _, .optional hv => hv.toPlain
  | _, _, .list hvs => .array fun v hv => (hvs v hv).toPlain
  | _, _, .plain _ => .string _
  | _, _, .tagged hv => .object (by simp) (List.forall_mem_singleton.mpr hv.toPlain)
  | _, _, .record hnames hxs => .object (hxs.keys_eq_names ▸ hnames) hxs.toPlain

/-- The canonical value of a variant can be read back. -/
theorem Variants.Canonical.toPlain : ∀ {vs : Variants} {name : String} {v : Json},
    vs.Canonical name v → v.Plain
  | _, _, _, .first hv => hv.toPlain
  | _, _, _, .behindPlain _ hv => hv.toPlain
  | _, _, _, .behindTagged _ hv => hv.toPlain

/-- The canonical values of fields can be read back. -/
theorem Fields.Canonical.toPlain : ∀ {fs : Fields} {xs : List (String × Json)},
    fs.Canonical xs → ∀ x ∈ xs, x.2.Plain
  | _, _, .none => nofun
  | _, _, .field hv hxs => List.forall_mem_cons.mpr ⟨hv.toPlain, hxs.toPlain⟩

end

/-- What is accepted as it is, is also where it may be missing. -/
theorem Schema.accept_optional_self {s : Schema} {v : Json} (h : s.accept v = some v) :
    (Schema.optional s).accept v = some v := by
  cases v with
  | null => rw [Schema.accept]
  | _ =>
    rw [Schema.accept]
    · exact h
    · intro hnull
      cases hnull

/-- A list is left as it is if each of its values is. -/
theorem mapM_eq_some_self {f : Json → Option Json} : ∀ {vs : List Json},
    (∀ v ∈ vs, f v = some v) → vs.mapM f = some vs
  | [], _ => rfl
  | v :: vs, h => by
    obtain ⟨hv, hvs⟩ := List.forall_mem_cons.mp h
    rw [List.mapM_cons, hv, mapM_eq_some_self hvs]
    rfl

mutual

/-- What is canonical is accepted as it is. -/
theorem Schema.Canonical.accept : ∀ {s : Schema} {v : Json}, s.Canonical v → s.accept v = some v
  | _, _, .bool b => by rw [Schema.accept]
  | _, _, .natural hn _ => by simp only [Json.natural, Schema.accept, hn, if_true]
  | _, _, .string s => by rw [Schema.accept]
  | _, _, .identifier hn => by rw [Schema.accept, hn]; rfl
  | _, _, .null _ => by rw [Schema.accept]
  | _, _, .optional hv => Schema.accept_optional_self hv.accept
  | _, _, .list hvs => by
    rw [Schema.accept, mapM_eq_some_self fun v hv => (hvs v hv).accept]
    rfl
  | _, _, .plain hname => by rw [Schema.accept, if_pos hname]
  | _, _, .tagged hv => by rw [Schema.accept]; exact hv.accept
  | _, _, .record hnames hxs => by
    rw [Schema.accept, hxs.accept fun x hx => ?_]
    · rfl
    · exact lookup_of_mem (hxs.keys_eq_names ▸ hnames) hx

/-- The canonical value of a variant is accepted as it is, under the name of the variant. -/
theorem Variants.Canonical.accept : ∀ {vs : Variants} {name : String} {v : Json},
    vs.Canonical name v → vs.acceptTagged name v = some (.object [(name, v)])
  | _, _, _, .first hv => by rw [Variants.acceptTagged, if_pos rfl, hv.accept]; rfl
  | _, _, _, .behindPlain hn hv => by
    simp only [Variants.acceptTagged, hn, if_false]
    exact hv.accept
  | _, _, _, .behindTagged hn hv => by
    simp only [Variants.acceptTagged, hn, if_false]
    exact hv.accept

/-- The fields are looked up among all members of the record, of which these are the last ones. -/
theorem Fields.Canonical.accept : ∀ {fs : Fields} {xs ms : List (String × Json)},
    fs.Canonical xs → (∀ x ∈ xs, ms.lookup x.1 = some x.2) → fs.acceptMembers ms = some xs
  | _, _, _, .none, _ => rfl
  | _, _, _, .field hv hxs, h => by
    obtain ⟨hfirst, hrest⟩ := List.forall_mem_cons.mp h
    simp only [Fields.acceptMembers, hfirst, hv.accept, hxs.accept hrest]
    rfl

end

/-- A text that reads as a canonical value is read as the value. -/
theorem Schema.Canonical.readText_of_readsAs {s : Schema} {v : Json} {text : String}
    (hs : s.namesOnce = true) (hv : s.Canonical v) (hreads : ReadsAs text.toList v) :
    s.readText text = .ok v := by
  obtain ⟨d, hdraft, hd⟩ := hreads.exists_spells
  have hread := (Schema.toOption_readText_of_spells hs hdraft hd).trans hv.accept
  cases hanswer : s.readText text with
  | error f => simp [hanswer] at hread
  | ok w => exact congrArg _ (by simpa [hanswer] using hread)

/-- The text of a canonical value on lines is read as the value. -/
theorem Schema.Canonical.readText_pretty {s : Schema} {v : Json} (hs : s.namesOnce = true)
    (hv : s.Canonical v) : s.readText v.pretty = .ok v := by
  refine hv.readText_of_readsAs hs ?_
  rw [Json.pretty, String.toList_ofList]
  exact hv.toPlain.readsAs_layout 0

/-- The text of a canonical value without space is read as the value. -/
theorem Schema.Canonical.readText_compact {s : Schema} {v : Json} (hs : s.namesOnce = true)
    (hv : s.Canonical v) : s.readText v.compact = .ok v := by
  refine hv.readText_of_readsAs hs ?_
  rw [Json.compact, String.toList_ofList]
  exact hv.toPlain.readsAs_write

end StackEditor.Json

namespace StackEditor.Serial

variable {α : Type} [Serial α]

/-- The JSON form of the value is canonical, and stands for the value. -/
structure Faithful (a : α) : Prop where
  canonical : (schema α).Canonical (toJson a)
  ofJson? : ofJson? (toJson a) = some a

/-- A text that is read as the JSON form of the value is read as the value. -/
theorem Faithful.parse_of_readText {a : α} {text : String} (h : Faithful a)
    (hread : (schema α).readText text = .ok (toJson a)) : parse α text = .ok a := by
  rw [parse, hread]
  simp only [bind, Except.bind, h.ofJson?]
  rfl

/-- The value is read back from its text on lines. -/
theorem Faithful.parse_pretty {a : α} (h : Faithful a) (hschema : (schema α).namesOnce = true) :
    parse α (toJson a).pretty = .ok a :=
  h.parse_of_readText (h.canonical.readText_pretty hschema)

/-- The value is read back from its text. -/
theorem Faithful.parse_print {a : α} (h : Faithful a) (hschema : (schema α).namesOnce = true) :
    parse α (print a) = .ok a :=
  h.parse_of_readText (h.canonical.readText_compact hschema)

/-- The value is taken back from its JSON form. -/
theorem Faithful.accept?_toJson {a : α} (h : Faithful a) : accept? α (toJson a) = some a :=
  Option.bind_eq_some_iff.mpr ⟨_, h.canonical.accept, h.ofJson?⟩

end StackEditor.Serial
