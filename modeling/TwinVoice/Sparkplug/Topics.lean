import TwinVoice.Lib.Segments
import TwinVoice.Sparkplug.Codec

/-! # Sparkplug topics

`spBv1.0/<group>/<message type>/<edge node>`, with a device at the end for
the messages of a device. What `build_topic` makes is a topic whose
identifiers hold none of `/`, `+` and `#`; `parse_topic` looks for slashes
only. -/

namespace TwinVoice.Sparkplug

open TwinVoice.Lib Segments

inductive MessageType
  | nbirth | ndeath | ndata | ncmd | dbirth | ddeath | ddata | dcmd
  deriving DecidableEq

namespace MessageType

/-- The value of the `StrEnum`. -/
def value : MessageType → String
  | nbirth => "NBIRTH"
  | ndeath => "NDEATH"
  | ndata => "NDATA"
  | ncmd => "NCMD"
  | dbirth => "DBIRTH"
  | ddeath => "DDEATH"
  | ddata => "DDATA"
  | dcmd => "DCMD"

def all : List MessageType := [nbirth, ndeath, ndata, ncmd, dbirth, ddeath, ddata, dcmd]

/-- `MessageType(s)`. -/
def ofValue? (s : String) : Option MessageType := all.find? (·.value == s)

def isDevice (mt : MessageType) : Bool := mt.value.toList.head? == some 'D'

@[simp] theorem ofValue?_value (mt : MessageType) : ofValue? mt.value = some mt := by
  cases mt <;> decide

theorem ofValue?_eq_some {s : String} {mt : MessageType} : ofValue? s = some mt ↔ mt.value = s := by
  constructor
  · intro h
    simpa using List.find?_some h
  · intro h
    rw [← h, ofValue?_value]

theorem value_ne_empty (mt : MessageType) : mt.value ≠ "" := by
  cases mt <;> decide

theorem value_free (mt : MessageType) : '/' ∉ mt.value.toList := by
  cases mt <;> decide

end MessageType

def topicNamespace : String := "spBv1.0"

structure Topic where
  groupId : String
  messageType : MessageType
  edgeNodeId : String
  deviceId : Option String
  deriving DecidableEq

namespace Topic

def ids (t : Topic) : List String := t.groupId :: t.edgeNodeId :: t.deviceId.toList

def parts (t : Topic) : List String :=
  [topicNamespace, t.groupId, t.messageType.value, t.edgeNodeId] ++ t.deviceId.toList

def path (t : Topic) : String := join '/' t.parts

/-- A device for the messages of a device, and identifiers that are segments. -/
def Shaped (t : Topic) : Prop :=
  t.messageType.isDevice = t.deviceId.isSome ∧ ∀ i ∈ t.ids, i ≠ "" ∧ '/' ∉ i.toList

/-- No identifier holds a wildcard of MQTT. -/
def Plain (t : Topic) : Prop := ∀ i ∈ t.ids, '+' ∉ i.toList ∧ '#' ∉ i.toList

instance (t : Topic) : Decidable t.Shaped := inferInstanceAs (Decidable (_ ∧ _))

instance (t : Topic) : Decidable t.Plain := inferInstanceAs (Decidable (∀ _ ∈ _, _))

theorem parts_ne_nil (t : Topic) : t.parts ≠ [] := by simp [parts]

theorem parts_injective {t u : Topic} (h : t.parts = u.parts) : t = u := by
  obtain ⟨g, mt, e, d⟩ := t
  obtain ⟨g', mt', e', d'⟩ := u
  simp only [parts, List.cons_append, List.nil_append, List.cons.injEq, true_and] at h
  obtain ⟨hg, hmt, he, hd⟩ := h
  have hmt : mt = mt' := by
    have h := MessageType.ofValue?_eq_some.mpr hmt.symm
    simpa using h
  have hd : d = d' := by cases d <;> cases d' <;> simp_all
  rw [hg, hmt, he, hd]

theorem Shaped.free {t : Topic} (h : t.Shaped) : Free '/' t.parts := by
  intro p hp
  simp only [parts, List.cons_append, List.nil_append, List.mem_cons] at hp
  rcases hp with rfl | rfl | rfl | rfl | hp
  · decide
  · exact (h.2 _ (by simp [ids])).2
  · exact t.messageType.value_free
  · exact (h.2 _ (by simp [ids])).2
  · exact (h.2 _ (by simp [ids, hp])).2

theorem Shaped.split_path {t : Topic} (h : t.Shaped) : split '/' t.path = t.parts :=
  split_join h.free t.parts_ne_nil

theorem path_injective {t u : Topic} (ht : t.Shaped) (hu : u.Shaped) (h : t.path = u.path) : t = u := by
  apply parts_injective
  rw [← ht.split_path, h, hu.split_path]

end Topic

section
variable (py : Builtins)

/-- `_check_id`. -/
def checkId (label value : String) : Except PyError Unit :=
  if value = "" ∨ ['/', '+', '#'].any (· ∈ value.toList) then
    .error (.valueError ("invalid Sparkplug " ++ label ++ ": " ++ py.repr (.str value)))
  else .ok ()

/-- `build_topic`; a `MessageType` is a `StrEnum`, so a text. -/
def buildTopic (groupId messageType edgeNodeId : String) (deviceId : Option String) : Except PyError String :=
  match MessageType.ofValue? messageType with
  | none => .error (.valueError (py.repr (.str messageType) ++ " is not a valid MessageType"))
  | some mt => do
    checkId py "group_id" groupId
    checkId py "edge_node_id" edgeNodeId
    if mt.isDevice ≠ deviceId.isSome then
      .error (.valueError (mt.value ++ " " ++ (if mt.isDevice then "requires" else "forbids") ++ " a device_id"))
    else
      let parts := [topicNamespace, groupId, mt.value, edgeNodeId]
      match deviceId with
      | none => return join '/' parts
      | some device => do
        checkId py "device_id" device
        return join '/' (parts ++ [device])

/-- `str(topic)`. -/
def Topic.str (t : Topic) : Except PyError String :=
  buildTopic py t.groupId t.messageType.value t.edgeNodeId t.deviceId

/-- `parse_topic` of a topic whose segments are these. -/
def parseParts (topic group type edgeNode : String) (device : Option String) : Except PyError Topic :=
  match MessageType.ofValue? type with
  | none => .error (.valueError ("unknown Sparkplug message type in " ++ py.repr (.str topic)))
  | some mt =>
    if mt.isDevice ≠ device.isSome ∨ ∃ p ∈ [group, type, edgeNode] ++ device.toList, p = "" then
      .error (.valueError ("malformed Sparkplug topic: " ++ py.repr (.str topic)))
    else .ok ⟨group, mt, edgeNode, device⟩

/-- `parse_topic`. -/
def parseTopic (topic : String) : Except PyError Topic :=
  let refused : Except PyError Topic := .error (.valueError ("not a Sparkplug B topic: " ++ py.repr (.str topic)))
  match split '/' topic with
  | [first, group, type, edgeNode] =>
    if first = topicNamespace then parseParts py topic group type edgeNode none else refused
  | [first, group, type, edgeNode, device] =>
    if first = topicNamespace then parseParts py topic group type edgeNode (some device) else refused
  | _ => refused

end

/-! ## What each of the two accepts -/

section
variable {py : Builtins}

/-- What an identifier that `_check_id` accepts is. -/
def ValidId (value : String) : Prop :=
  (value ≠ "" ∧ '/' ∉ value.toList) ∧ '+' ∉ value.toList ∧ '#' ∉ value.toList

theorem checkId_eq_ok {label value : String} : checkId py label value = .ok () ↔ ValidId value := by
  unfold checkId ValidId
  split
  · rename_i h
    simp at h ⊢
    tauto
  · rename_i h
    simp at h ⊢
    tauto

theorem checkId_bind_eq_ok {α : Type} {label value : String} {f : Unit → Except PyError α} {a : α} :
    (checkId py label value >>= f) = .ok a ↔ ValidId value ∧ f () = .ok a := by
  have hvalid : checkId py label value = .ok () ↔ ValidId value := checkId_eq_ok
  rw [← hvalid]
  cases h : checkId py label value with
  | error e => simp [bind, Except.bind]
  | ok u => simp [bind, Except.bind]

theorem Topic.shaped_and_plain_iff {t : Topic} :
    t.Shaped ∧ t.Plain ↔ t.messageType.isDevice = t.deviceId.isSome ∧ ∀ i ∈ t.ids, ValidId i := by
  constructor
  · intro ⟨⟨hdev, hids⟩, hplain⟩
    exact ⟨hdev, fun i hi => ⟨hids i hi, hplain i hi⟩⟩
  · intro ⟨hdev, hids⟩
    exact ⟨⟨hdev, fun i hi => (hids i hi).1⟩, fun i hi => (hids i hi).2⟩

theorem buildTopic_of_value {g e : String} {mt : MessageType} {d : Option String} {s : String} :
    buildTopic py g mt.value e d = .ok s ↔
      (mt.isDevice = d.isSome ∧ ∀ i ∈ (⟨g, mt, e, d⟩ : Topic).ids, ValidId i) ∧
        (⟨g, mt, e, d⟩ : Topic).path = s := by
  unfold buildTopic
  simp only [MessageType.ofValue?_value, checkId_bind_eq_ok]
  by_cases hdev : mt.isDevice = d.isSome
  · cases d with
    | none =>
      simp only [hdev, ne_eq, not_true, if_false, Topic.ids, Topic.path, Topic.parts]
      simp [pure, Except.pure]
      tauto
    | some device =>
      simp only [hdev, ne_eq, not_true, if_false, Topic.ids, Topic.path, Topic.parts]
      simp [checkId_bind_eq_ok, pure, Except.pure]
      tauto
  · simp [hdev]

/-- What `build_topic` makes is the path of a topic without wildcards. -/
theorem buildTopic_eq_ok {g m e : String} {d : Option String} {s : String} :
    buildTopic py g m e d = .ok s ↔
      ∃ t : Topic, t.groupId = g ∧ t.messageType.value = m ∧ t.edgeNodeId = e ∧ t.deviceId = d ∧
        (t.Shaped ∧ t.Plain) ∧ t.path = s := by
  simp only [Topic.shaped_and_plain_iff]
  constructor
  · intro h
    cases hm : MessageType.ofValue? m with
    | none => simp [buildTopic, hm] at h
    | some mt =>
      obtain rfl := MessageType.ofValue?_eq_some.mp hm
      exact ⟨⟨g, mt, e, d⟩, rfl, rfl, rfl, rfl, buildTopic_of_value.mp h⟩
  · intro ⟨t, hg, hm, he, hd, h⟩
    subst hg hm he hd
    exact buildTopic_of_value.mpr h

theorem Topic.str_eq_ok {t : Topic} {s : String} :
    t.str py = .ok s ↔ (t.Shaped ∧ t.Plain) ∧ t.path = s := by
  rw [Topic.shaped_and_plain_iff]
  exact buildTopic_of_value

theorem parseParts_eq_ok {topic g m e : String} {d : Option String} {t : Topic}
    (hfree : Free '/' (topicNamespace :: g :: m :: e :: d.toList)) :
    parseParts py topic g m e d = .ok t ↔ t.Shaped ∧ t.parts = topicNamespace :: g :: m :: e :: d.toList := by
  unfold parseParts
  constructor
  · intro h
    cases hm : MessageType.ofValue? m with
    | none => simp [hm] at h
    | some mt =>
      obtain rfl := MessageType.ofValue?_eq_some.mp hm
      simp only [hm] at h
      split at h
      · cases h
      · rename_i hok
        simp only [not_or, ne_eq, not_not, not_exists, not_and] at hok
        obtain rfl := Except.ok.inj h
        refine ⟨⟨hok.1, ?_⟩, rfl⟩
        intro i hi
        have hseg : i = g ∨ i = e ∨ i ∈ d.toList := by simpa [Topic.ids] using hi
        refine ⟨hok.2 i ?_, hfree i ?_⟩ <;> simp only [List.mem_append, List.mem_cons] <;> tauto
  · intro ⟨⟨hdev, hids⟩, hparts⟩
    obtain ⟨g', mt, e', d'⟩ := t
    simp only [Topic.parts, List.cons_append, List.nil_append, List.cons.injEq, true_and] at hparts
    obtain ⟨rfl, rfl, rfl, hd⟩ := hparts
    obtain rfl : d' = d := by cases d <;> cases d' <;> simp_all
    simp only [MessageType.ofValue?_value]
    rw [if_neg]
    intro hbad
    rcases hbad with hbad | ⟨p, hp, rfl⟩
    · exact hbad hdev
    · have hseg : "" = mt.value ∨ "" ∈ (⟨g', mt, e', d'⟩ : Topic).ids := by
        simp only [List.mem_append, List.mem_cons, Topic.ids] at hp ⊢
        tauto
      rcases hseg with hmt | hid
      · exact mt.value_ne_empty hmt.symm
      · exact (hids "" hid).1 rfl

/-- What `parse_topic` accepts is the path of any topic of the right shape. -/
theorem parseTopic_eq_ok {s : String} {t : Topic} : parseTopic py s = .ok t ↔ t.Shaped ∧ t.path = s := by
  constructor
  · intro h
    have hread : ∃ g m e d, split '/' s = topicNamespace :: g :: m :: e :: Option.toList d ∧
        parseParts py s g m e d = .ok t := by
      unfold parseTopic at h
      dsimp only at h
      split at h
      · rename_i first g m e hs
        split at h
        · rename_i hfirst
          exact ⟨g, m, e, none, by rw [hs, hfirst]; rfl, h⟩
        · cases h
      · rename_i first g m e d hs
        split at h
        · rename_i hfirst
          exact ⟨g, m, e, some d, by rw [hs, hfirst]; rfl, h⟩
        · cases h
      · cases h
    obtain ⟨g, m, e, d, hs, hok⟩ := hread
    obtain ⟨_, hfree, hjoin⟩ := split_eq_iff.mp hs
    obtain ⟨hshaped, hparts⟩ := (parseParts_eq_ok hfree).mp hok
    exact ⟨hshaped, by rw [Topic.path, hparts, hjoin]⟩
  · intro ⟨hshaped, hpath⟩
    subst hpath
    have hok : parseParts py t.path t.groupId t.messageType.value t.edgeNodeId t.deviceId = .ok t :=
      (parseParts_eq_ok hshaped.free).mpr ⟨hshaped, rfl⟩
    unfold parseTopic
    dsimp only
    rw [hshaped.split_path]
    cases hd : t.deviceId with
    | none =>
      rw [hd] at hok
      simp only [Topic.parts, hd, Option.toList, List.append_nil, if_true, hok]
    | some d =>
      rw [hd] at hok
      simp only [Topic.parts, hd, Option.toList, List.cons_append, List.nil_append, if_true, hok]

/-! ## The two together -/

/-- What the grammar promises of a text: `parse_topic` takes it if and only if
`build_topic` makes it, and the parts it gives make the text again. -/
def Topic.GrammarAt (py : Builtins) (s : String) : Prop :=
  ((∃ t, parseTopic py s = .ok t) ↔ ∃ g m e d, buildTopic py g m e d = .ok s) ∧
    ∀ t, parseTopic py s = .ok t → t.str py = .ok s

theorem parseTopic_of_buildTopic {g m e : String} {d : Option String} {s : String}
    (h : buildTopic py g m e d = .ok s) :
    ∃ mt : MessageType, mt.value = m ∧ parseTopic py s = .ok ⟨g, mt, e, d⟩ := by
  obtain ⟨t, hg, hm, he, hd, ⟨hshaped, _⟩, hpath⟩ := buildTopic_eq_ok.mp h
  subst hg hm he hd
  exact ⟨t.messageType, rfl, parseTopic_eq_ok.mpr ⟨hshaped, hpath⟩⟩

theorem Topic.grammarAt_iff {s : String} :
    Topic.GrammarAt py s ↔ ∀ t : Topic, t.Shaped → t.path = s → t.Plain := by
  constructor
  · intro ⟨_, hback⟩ t hshaped hpath
    exact (Topic.str_eq_ok.mp (hback t (parseTopic_eq_ok.mpr ⟨hshaped, hpath⟩))).1.2
  · intro hplain
    have hback : ∀ t, parseTopic py s = .ok t → t.str py = .ok s := by
      intro t ht
      obtain ⟨hshaped, hpath⟩ := parseTopic_eq_ok.mp ht
      exact Topic.str_eq_ok.mpr ⟨⟨hshaped, hplain t hshaped hpath⟩, hpath⟩
    refine ⟨⟨?_, ?_⟩, hback⟩
    · intro ⟨t, ht⟩
      exact ⟨_, _, _, _, hback t ht⟩
    · intro ⟨g, m, e, d, h⟩
      obtain ⟨mt, _, ht⟩ := parseTopic_of_buildTopic h
      exact ⟨_, ht⟩

end

/-- Every topic that `build_topic` makes is read back as its parts, and the grammar
holds of a text unless it is a topic with a wildcard in an identifier. -/
theorem topic_grammar_iff (py : Builtins) :
    (∀ g m e d s, buildTopic py g m e d = .ok s →
        ∃ mt : MessageType, mt.value = m ∧ parseTopic py s = .ok ⟨g, mt, e, d⟩) ∧
      ∀ s, Topic.GrammarAt py s ↔ ∀ t : Topic, t.Shaped → t.path = s → t.Plain := by
  constructor
  · intro g m e d s h
    exact parseTopic_of_buildTopic h
  · intro s
    exact Topic.grammarAt_iff

/-- A subscription filter is taken for the birth of a node. -/
theorem wildcard_group_parses :
    let py : Builtins := ⟨fun _ => "", fun _ => none, fun _ => none⟩
    let topic : Topic := ⟨"+", .nbirth, "line-01", none⟩
    parseTopic py "spBv1.0/+/NBIRTH/line-01" = .ok topic ∧
      (∀ s, topic.str py ≠ .ok s) ∧ ¬ Topic.GrammarAt py "spBv1.0/+/NBIRTH/line-01" := by
  intro py topic
  have hshaped : topic.Shaped := by decide
  have hpath : topic.path = "spBv1.0/+/NBIRTH/line-01" := by decide
  have hwild : ¬ topic.Plain := by decide
  refine ⟨parseTopic_eq_ok.mpr ⟨hshaped, hpath⟩, ?_, ?_⟩
  · intro s h
    exact hwild (Topic.str_eq_ok.mp h).1.2
  · intro h
    exact hwild (Topic.grammarAt_iff.mp h topic hshaped hpath)

end TwinVoice.Sparkplug
