/-
  Plugins.StoreRuns
  **THE LOCK OF THE PLUGIN STORE OVER WHOLE RUNS.**

  What is written is read back where a second normalization of a record's texts
  changes nothing.  Prefixes, ids and revisions are like that; a subdirectory is
  not always: `./.` is stored as `.` and read as the empty text, and a leading
  space that was hidden behind `./` is stripped at the next reading.
-/
import DeterminFlow.Library.Outcome
import DeterminFlow.Library.Runs
import DeterminFlow.Plugins.Store

namespace DeterminFlow.Plugins.Store

open Library PyText Runs List Except Outcome Dict
open Option (some.inj)

/-! ## Texts that normalize to themselves -/

variable {α : Type}

lemma map_ok {β : Type} {x : Except String α} {f : α → β} {b : β} :
    x.map f = .ok b ↔ ∃ a, x = .ok a ∧ f a = b := by
  cases x with
  | error =>
    constructor
    · intro h
      cases h
    rintro ⟨a, ha, -⟩
    cases ha
  | ok a =>
    constructor
    · exact fun h => ⟨a, rfl, ok.inj h⟩
    rintro ⟨_, ha, rfl⟩
    rw [ok.inj ha]
    rfl

lemma orError_ok {value : Option α} {e : String} {a : α} :
    orError value e = .ok a ↔ value = some a := by
  cases value with
  | none =>
    constructor
    all_goals
      intro h
      cases h
  | some =>
    constructor
    · exact fun h => congrArg some (ok.inj h)
    exact fun h => congrArg Except.ok (some.inj h)

lemma validatePluginId_again {raw pluginId : Text} (h : validatePluginId raw = .ok pluginId) :
    validatePluginId pluginId = .ok pluginId := by
  rw [validatePluginId] at h
  split at h
  · cases h
  next hgood =>
  obtain rfl := ok.inj h
  rw [validatePluginId, strip_strip, if_neg hgood]

lemma validateResourcePrefix_again {raw kept : Text} {allowEmpty : Bool}
    (h : validateResourcePrefix raw allowEmpty = .ok kept) :
    validateResourcePrefix kept allowEmpty = .ok kept := by
  rw [validateResourcePrefix] at h
  split at h
  · next hempty =>
    obtain rfl := ok.inj h
    rw [validateResourcePrefix, if_pos ⟨rfl, hempty.2⟩]
  next hfull =>
  split at h
  · cases h
  next hgood =>
  obtain rfl := ok.inj h
  rw [validateResourcePrefix, strip_strip, if_neg hfull, if_neg hgood]

lemma validateResourcePrefix_allow {raw kept : Text}
    (h : validateResourcePrefix raw false = .ok kept) :
    validateResourcePrefix raw true = .ok kept := by
  rw [validateResourcePrefix] at h ⊢
  rw [if_neg (fun hempty => Bool.false_ne_true hempty.2)] at h
  split at h
  · cases h
  next hgood =>
  rw [if_neg, if_neg hgood]
  · exact h
  rintro ⟨hempty, -⟩
  rw [hempty] at hgood
  exact hgood (.inr (by decide))

/-- A part of a normalized path. -/
structure PlainPart (part : Text) : Prop where
  ne_nil : part ≠ []
  ne_dot : part ≠ ['.']
  slash : '/' ∉ part
  backslash : '\\' ∉ part

lemma validateSubdirectory_parts {raw kept : Text} (h : validateSubdirectory raw = .ok kept) :
    kept = [] ∨ ∃ parts, kept = asPosix parts ∧ ['.', '.'] ∉ parts
      ∧ ∀ part ∈ parts, PlainPart part := by
  rw [validateSubdirectory] at h
  split at h
  · exact .inl (ok.inj h).symm
  split at h
  · cases h
  next hsafe =>
  rw [not_or] at hsafe
  refine .inr ⟨_, (ok.inj h).symm, hsafe.2, fun part hpart => ?_⟩
  rw [pathParts, mem_filter, decide_eq_true_eq] at hpart
  obtain ⟨hsplit, hne, hdot⟩ := hpart
  obtain ⟨hslash, hchars⟩ := mem_splitAt hsplit
  refine ⟨hne, hdot, hslash, fun hmem => ?_⟩
  -- every backslash has become a slash
  obtain ⟨_, -, hc⟩ := mem_map.1 (hchars _ hmem)
  split at hc
  · cases hc
  · next hother => exact hother hc

lemma validateSubdirectory_again {raw kept : Text} (h : validateSubdirectory raw = .ok kept)
    (hdot : kept ≠ ['.']) (hstrip : strip kept = kept) : validateSubdirectory kept = .ok kept := by
  rcases validateSubdirectory_parts h with rfl | ⟨parts, rfl, hup, hplain⟩
  · rfl
  cases hparts : parts with
  | nil =>
    rw [hparts] at hdot
    exact absurd rfl hdot
  | cons first others =>
    rw [← hparts]
    have hne : parts ≠ [] := hparts ▸ cons_ne_nil first others
    have hjoin : asPosix parts = List.intercalate ['/'] parts := by
      rw [hparts]
      rfl
    have hmem : ∀ c ∈ asPosix parts, c ≠ '\\' := by
      intro c hc heq
      rw [hjoin] at hc
      rcases mem_intercalate hc with hsep | ⟨part, hpart, hmem⟩
      · exact absurd (heq.symm.trans hsep) (by decide)
      exact (hplain part hpart).backslash (heq ▸ hmem)
    have hmap : (asPosix parts).map (fun c => if c = '\\' then '/' else c) = asPosix parts := by
      conv_rhs => rw [← map_id (asPosix parts)]
      exact map_congr_left fun c hc => if_neg (hmem c hc)
    have hpathParts : pathParts (asPosix parts) = parts := by
      rw [pathParts, hjoin, splitAt_intercalate hne (fun p hp => (hplain p hp).slash),
        filter_eq_self]
      exact fun p hp => decide_eq_true ⟨(hplain p hp).ne_nil, (hplain p hp).ne_dot⟩
    have hfirst := hplain first (hparts ▸ mem_cons_self)
    have hhead : (asPosix parts).head? = first.head? := by
      rw [hjoin, hparts]
      cases first with
      | nil => exact absurd rfl hfirst.ne_nil
      | cons =>
        cases others with
        | nil => rw [intercalate_singleton]
        | cons => rw [intercalate_cons_cons]; rfl
    rw [validateSubdirectory, hstrip, hmap, hpathParts, if_neg, if_neg]
    · rintro (hslash | hmem)
      · rw [hhead] at hslash
        exact hfirst.slash (mem_of_mem_head? hslash)
      exact hup hmem
    rintro (hnil | heq)
    · rw [hnil] at hhead
      exact hfirst.ne_nil (head?_eq_none_iff.1 hhead.symm)
    exact hdot heq

/-! ## Reading what was written -/

section
variable (o : Outside)

/-- A revision that the store placed or read. -/
structure Revision.Valid (revision : Revision) : Prop where
  commit : isCommit revision.commit = true
  digest : isDigest revision.contentSha256 = true
  resolved : o.resolve revision.checkoutPath = revision.checkoutPath

def Record.revisionKeys (record : Record) : List (String × String) :=
  (record.activeRevision :: record.history).map Revision.key

/-- A record whose texts normalize to themselves and whose history is in
order. -/
structure Record.Valid (record : Record) : Prop where
  subdirectory : validateSubdirectory record.subdirectory = .ok record.subdirectory
  resource : validateResourcePrefix record.resourcePrefix true = .ok record.resourcePrefix
  override : ∀ text, record.resourcePrefixOverride = some text →
    validateResourcePrefix text false = .ok text
  revisions : ∀ revision ∈ record.activeRevision :: record.history, revision.Valid o
  keys : record.revisionKeys.Nodup

lemma safeLockedCheckout_ok {value : Location} {checkout : Place}
    (h : safeLockedCheckout o value = .ok checkout) :
    checkout = o.resolve (if value.isAbsolute then value.parts else o.root ++ value.parts)
      ∧ o.resolve o.checkoutsDir <+: checkout := by
  rw [safeLockedCheckout] at h
  by_cases hinside : o.resolve o.checkoutsDir
      <+: o.resolve (if value.isAbsolute then value.parts else o.root ++ value.parts)
  · rw [if_pos hinside] at h
    obtain rfl := ok.inj h
    exact ⟨rfl, hinside⟩
  rw [if_neg hinside] at h
  cases h

lemma revisionFromPayload_toPayload {revision : Revision} {payload : RevisionPayload}
    (hvalid : revision.Valid o) (h : revisionToPayload o revision = .ok payload) :
    revisionFromPayload o payload = .ok revision := by
  rw [revisionToPayload] at h
  obtain ⟨checkout, hcheckout, h⟩ := bind_eq_ok_iff.1 h
  obtain ⟨_, hrelative, h⟩ := bind_eq_ok_iff.1 h
  obtain rfl := ok.inj h
  obtain ⟨hresolved, hinside⟩ := safeLockedCheckout_ok o hcheckout
  rw [if_pos rfl, hvalid.resolved] at hresolved
  rw [orError_ok, relativeTo?] at hrelative
  split at hrelative
  · next hroot =>
    obtain rfl := some.inj hrelative
    have hback : o.root ++ checkout.drop o.root.length = checkout := by
      obtain ⟨_, rfl⟩ := hroot
      rw [drop_left]
    have hsafe : safeLockedCheckout o
        { isAbsolute := false, parts := checkout.drop o.root.length } = .ok checkout := by
      have hsame : o.resolve checkout = checkout := hresolved ▸ hvalid.resolved
      rw [safeLockedCheckout]
      simp only [Bool.false_eq_true, if_false, hback, hsame, if_pos hinside]
    rw [revisionFromPayload, if_neg, if_neg, hsafe]
    · rw [hresolved]
      rfl
    · rw [hvalid.digest]
      decide
    rw [hvalid.commit]
    decide
  cases hrelative

lemma mapM_back {α β : Type} {f : α → Except String β} {g : β → Except String α} {l : List α}
    {m : List β} (hback : ∀ a ∈ l, ∀ b, f a = .ok b → g b = .ok a) (h : l.mapM f = .ok m) :
    m.mapM g = .ok l := by
  induction l generalizing m with
  | nil =>
    obtain rfl := ok.inj h
    rfl
  | cons a rest ih =>
    rw [mapM_cons] at h
    obtain ⟨b, hb, h⟩ := bind_eq_ok_iff.1 h
    obtain ⟨_, hbs, h⟩ := bind_eq_ok_iff.1 h
    obtain rfl := ok.inj h
    have hrest := ih (fun a' ha' => hback a' (mem_cons_of_mem a ha')) hbs
    rw [mapM_cons, hback a mem_cons_self b hb, hrest]
    rfl

lemma SourceKind.ofText?_text (kind : SourceKind) : SourceKind.ofText? kind.text = some kind := by
  cases kind with
  | «local» => rfl
  | git => rfl

lemma Trust.ofText?_text (trust : Trust) : Trust.ofText? trust.text = some trust := by
  cases trust with
  | _ => rfl

lemma Action.ofText?_text (action : Action) : Action.ofText? action.text = some action := by
  cases action with
  | _ => rfl

lemma recordFromPayload_toPayload (manifests : Manifests) {record : Record}
    {payload : RecordPayload} (hvalid : record.Valid o)
    (h : recordToPayload o record = .ok payload) :
    recordFromPayload o manifests record.pluginId payload = .ok record := by
  rw [recordToPayload] at h
  obtain ⟨_, hactive, h⟩ := bind_eq_ok_iff.1 h
  obtain ⟨_, hhistory, h⟩ := bind_eq_ok_iff.1 h
  obtain rfl := ok.inj h
  have hactive := revisionFromPayload_toPayload o (hvalid.revisions _ mem_cons_self) hactive
  have hhistory := mapM_back (fun _ hrevision payload hpayload =>
    revisionFromPayload_toPayload o (hvalid.revisions _ (mem_cons_of_mem _ hrevision))
      hpayload) hhistory
  have haction : actionFromPayload (record.pendingAction.map Action.text)
      = .ok record.pendingAction := by
    cases record.pendingAction with
    | none => rfl
    | some =>
      rw [Option.map_some, actionFromPayload, Action.ofText?_text]
      rfl
  rw [recordFromPayload]
  refine bind_eq_ok_iff.2 ⟨_, hvalid.subdirectory, bind_eq_ok_iff.2 ⟨_, hvalid.resource, bind_eq_ok_iff.2 ⟨_, hactive,
    bind_eq_ok_iff.2 ⟨_, hhistory, bind_eq_ok_iff.2 ⟨_, haction, bind_eq_ok_iff.2
      ⟨_, orError_ok.2 (SourceKind.ofText?_text _), bind_eq_ok_iff.2
        ⟨_, orError_ok.2 (Trust.ofText?_text _), bind_eq_ok_iff.2
          ⟨record.resourcePrefixOverride, ?_, rfl⟩⟩⟩⟩⟩⟩⟩⟩
  rw [overrideFromPayload]
  cases hcase : record.resourcePrefixOverride with
  | none => rfl
  | some text =>
    simp only [hvalid.override text hcase]
    rfl

/-- Records that the store can have: under distinct ids, valid, and with no
prefix twice. -/
structure RecordsOk (records : Records) : Prop where
  nodup : records.keys.Nodup
  named : ∀ e ∈ records, validatePluginId e.1 = .ok e.1 ∧ e.2.pluginId = e.1
  valid : ∀ e ∈ records, e.2.Valid o
  distinct : ∀ e ∈ records, ∀ e' ∈ records, e.1 ≠ e'.1 → e.2.resourcePrefix ≠ [] →
    e.2.resourcePrefix ≠ e'.2.resourcePrefix

variable {o}

lemma RecordsOk.perm {records records' : Records} (h : RecordsOk o records)
    (hperm : records'.Perm records) : RecordsOk o records' where
  nodup := (hperm.map Prod.fst).nodup_iff.2 h.nodup
  named e he := h.named e (hperm.mem_iff.1 he)
  valid e he := h.valid e (hperm.mem_iff.1 he)
  distinct e he e' he' := h.distinct e (hperm.mem_iff.1 he) e' (hperm.mem_iff.1 he')

variable (o)

lemma ensureResourcePrefixAvailable_ok {records : Records} {pluginId resourcePrefix : Text} :
    ensureResourcePrefixAvailable records pluginId resourcePrefix = .ok ()
      ↔ resourcePrefix = []
        ∨ ∀ e ∈ records, e.1 ≠ pluginId → e.2.resourcePrefix ≠ resourcePrefix := by
  rw [ensureResourcePrefixAvailable]
  by_cases hempty : resourcePrefix = []
  · rw [if_pos hempty]
    exact ⟨fun _ => .inl hempty, fun _ => rfl⟩
  rw [if_neg hempty]
  cases hfind : records.find? (fun e => decide (e.1 ≠ pluginId
      ∧ e.2.resourcePrefix = resourcePrefix)) with
  | none =>
    rw [find?_eq_none] at hfind
    refine ⟨fun _ => .inr fun e he hne heq => ?_, fun _ => rfl⟩
    exact hfind e he (decide_eq_true ⟨hne, heq⟩)
  | some e =>
    constructor
    · intro h
      cases h
    have hmem := mem_of_find?_eq_some hfind
    have htaken := find?_some hfind
    rw [decide_eq_true_eq] at htaken
    rintro (hnil | hfree)
    · exact absurd hnil hempty
    exact absurd htaken.2 (hfree e hmem htaken.1)

variable {accepted : Records}

lemma validateResourcePrefixes_ok {records : Records} (h : RecordsOk o (accepted ++ records)) :
    validateResourcePrefixes accepted records = .ok () := by
  induction records generalizing accepted with
  | nil => rfl
  | cons e rest ih =>
    have havailable : ensureResourcePrefixAvailable accepted e.1 e.2.resourcePrefix = .ok () := by
      rw [ensureResourcePrefixAvailable_ok]
      by_cases hempty : e.2.resourcePrefix = []
      · exact .inl hempty
      refine .inr fun e' he' hne heq => ?_
      exact h.distinct e (mem_append_right _ mem_cons_self) e'
        (mem_append_left _ he') (fun hid => hne hid.symm) hempty heq.symm
    rw [validateResourcePrefixes, havailable]
    apply ih
    rw [append_assoc]
    exact h

lemma readPlugins_written (manifests : Manifests) {records : Records}
    {plugins : List (Text × RecordPayload)} (h : RecordsOk o (accepted ++ records))
    (hwritten : records.mapM (fun e => (recordToPayload o e.2).map (fun p => (e.1, p)))
      = .ok plugins) : readPlugins o manifests accepted plugins = .ok (accepted ++ records) := by
  induction records generalizing accepted plugins with
  | nil =>
    obtain rfl := ok.inj hwritten
    rw [append_nil]
    rfl
  | cons e rest ih =>
    rw [mapM_cons] at hwritten
    obtain ⟨_, hentry, hwritten⟩ := bind_eq_ok_iff.1 hwritten
    obtain ⟨_, hentries, hwritten⟩ := bind_eq_ok_iff.1 hwritten
    obtain rfl := ok.inj hwritten
    obtain ⟨_, hpayload, rfl⟩ := map_ok.1 hentry
    have hmem : e ∈ accepted ++ e :: rest := mem_append_right _ mem_cons_self
    obtain ⟨hid, hname⟩ := h.named e hmem
    have hrecord := recordFromPayload_toPayload o manifests (h.valid e hmem) hpayload
    rw [hname] at hrecord
    have hnew : e.1 ∉ Dict.keys accepted := by
      have hnodup := h.nodup
      rw [Dict.keys, map_append, nodup_append] at hnodup
      exact fun hold => hnodup.2.2 e.1 hold e.1 (mem_map_of_mem mem_cons_self) rfl
    have hstep : accepted.set e.1 e.2 ++ rest = accepted ++ e :: rest := by
      rw [set_of_notMem hnew, append_assoc]
      rfl
    rw [readPlugins]
    refine bind_eq_ok_iff.2 ⟨e.1, hid, bind_eq_ok_iff.2 ⟨e.2, hrecord, ?_⟩⟩
    rw [← hstep]
    exact ih (hstep.symm ▸ h) hentries

lemma readLock_document (manifests : Manifests) {records : Records} {document : Document}
    (h : RecordsOk o records) (hwritten : documentFromRecords o records = .ok document) :
    readLock o manifests (some document) = .ok (sortedRecords records) := by
  rw [documentFromRecords] at hwritten
  obtain ⟨plugins, hplugins, rfl⟩ := map_ok.1 hwritten
  have hsorted : RecordsOk o (sortedRecords records) := h.perm (perm_insertionSort _ _)
  have hread : readPlugins o manifests [] plugins = .ok ([] ++ sortedRecords records) :=
    readPlugins_written o manifests hsorted hplugins
  rw [nil_append] at hread
  have hprefixes : validateResourcePrefixes [] (sortedRecords records) = .ok () :=
    validateResourcePrefixes_ok o hsorted
  rw [readLock]
  simp only [ne_eq, not_true_eq_false, if_false, hread, hprefixes]
  rfl

end

/-! ## Rebuilt histories -/

lemma uniqueRevisions_keys (excluded : String × String) (seen : List (String × String))
    (revisions : List Revision) : ((uniqueRevisions excluded seen revisions).map Revision.key).Nodup
      ∧ (∀ key ∈ (uniqueRevisions excluded seen revisions).map Revision.key,
        key ≠ excluded ∧ key ∉ seen)
      ∧ (∀ revision ∈ revisions, revision.key = excluded ∨ revision.key ∈ seen
        ∨ revision.key ∈ (uniqueRevisions excluded seen revisions).map Revision.key)
      ∧ ∀ revision ∈ uniqueRevisions excluded seen revisions, revision ∈ revisions := by
  induction revisions generalizing seen with
  | nil =>
    exact ⟨nodup_nil, nofun,
      nofun, nofun⟩
  | cons item rest ih =>
    rw [uniqueRevisions]
    by_cases hskip : item.key = excluded ∨ item.key ∈ seen
    · rw [if_pos hskip]
      obtain ⟨hnodup, hfresh, hkept, hmem⟩ := ih seen
      refine ⟨hnodup, hfresh, fun revision hrevision => ?_,
        fun revision hrevision => mem_cons_of_mem item (hmem revision hrevision)⟩
      rcases mem_cons.1 hrevision with rfl | hrest
      · rcases hskip with heq | hseen
        · exact .inl heq
        exact .inr (.inl hseen)
      exact hkept revision hrest
    rw [if_neg hskip]
    rw [not_or] at hskip
    obtain ⟨hnodup, hfresh, hkept, hmem⟩ := ih (item.key :: seen)
    rw [map_cons]
    refine ⟨nodup_cons.2 ⟨fun h => (hfresh _ h).2 mem_cons_self, hnodup⟩,
      fun key hkey => ?_, fun revision hrevision => ?_, fun revision hrevision => ?_⟩
    · rcases mem_cons.1 hkey with rfl | hrest
      · exact hskip
      exact ⟨(hfresh key hrest).1, fun h => (hfresh key hrest).2 (mem_cons_of_mem _ h)⟩
    · rcases mem_cons.1 hrevision with rfl | hrest
      · exact .inr (.inr mem_cons_self)
      rcases hkept revision hrest with heq | hseen | hlater
      · exact .inl heq
      · rcases mem_cons.1 hseen with heq | hseen
        · exact .inr (.inr (heq ▸ mem_cons_self))
        exact .inr (.inl hseen)
      exact .inr (.inr (mem_cons_of_mem _ hlater))
    rcases mem_cons.1 hrevision with rfl | hrest
    · exact mem_cons_self
    exact mem_cons_of_mem item (hmem revision hrest)

lemma prependUniqueRevision_keys (revision : Revision) (history : List Revision)
    (exclude : Revision) :
    (exclude.key :: (prependUniqueRevision revision history exclude).map Revision.key).Nodup
      ∧ (∀ r ∈ revision :: history,
        r.key ∈ exclude.key :: (prependUniqueRevision revision history exclude).map Revision.key)
      ∧ ∀ r ∈ prependUniqueRevision revision history exclude, r ∈ revision :: history := by
  obtain ⟨hnodup, hfresh, hkept, hmem⟩ :=
    uniqueRevisions_keys exclude.key [] (revision :: history)
  refine ⟨nodup_cons.2 ⟨fun h => (hfresh _ h).1 rfl, hnodup⟩, fun r hr => ?_, hmem⟩
  rcases hkept r hr with heq | hseen | hlater
  · exact heq ▸ mem_cons_self
  · cases hseen
  exact mem_cons_of_mem _ hlater

/-! ## What an operation rebuilds -/

section
variable (o : Outside)

/-- A record that may take the place of the plugin's. -/
structure Renewed (records : Records) (pluginId : Text) (record : Record) : Prop where
  valid : record.Valid o
  named : record.pluginId = pluginId
  available : ensureResourcePrefixAvailable records pluginId record.resourcePrefix = .ok ()
  kept : ∀ old, records.get? pluginId = some old → old.revisionKeys ⊆ record.revisionKeys

variable {o} {pluginId declared : Text} {acknowledgeRisk : Bool} {env : Env} {new old : Record}
  {records' : Records}

lemma RecordsOk.set {records : Records} (h : RecordsOk o records) {record : Record}
    (hid : validatePluginId pluginId = .ok pluginId) (hnew : Renewed o records pluginId record) :
    RecordsOk o (records.set pluginId record) := by
  have hmem : ∀ {e : Text × Record}, e ∈ records.set pluginId record →
      e = (pluginId, record) ∨ e ∈ records ∧ e.1 ≠ pluginId := fun he => mem_set h.nodup he
  have havailable := ensureResourcePrefixAvailable_ok.1 hnew.available
  constructor
  · exact nodup_keys_set h.nodup pluginId record
  · intro e he
    rcases hmem he with rfl | ⟨hold, -⟩
    · exact ⟨hid, hnew.named⟩
    exact h.named e hold
  · intro e he
    rcases hmem he with rfl | ⟨hold, -⟩
    · exact hnew.valid
    exact h.valid e hold
  intro e he e' he' hne hfull heq
  rcases hmem he with rfl | ⟨hold, hother⟩
  · rcases hmem he' with rfl | ⟨hold', hother'⟩
    · exact hne rfl
    rcases havailable with hempty | hfree
    · exact hfull hempty
    exact hfree e' hold' hother' heq.symm
  rcases hmem he' with rfl | ⟨hold', -⟩
  · rcases havailable with hempty | hfree
    · exact hfull (heq.trans hempty)
    exact hfree e hold hother heq
  exact h.distinct e hold e' hold' hne hfull heq

variable (hresolve : ∀ place, o.resolve (o.resolve place) = o.resolve place)

include hresolve in
lemma placeCheckout_valid (pluginId : Text) (package : Package) :
    (placeCheckout o pluginId package).Valid o where
  commit := package.commit_ok
  digest := package.digest_ok
  resolved := hresolve _

lemma manifestResourcePrefix_again {manifests : Manifests} {revision : Revision}
    (h : manifestResourcePrefix manifests revision = .ok declared) :
    validateResourcePrefix declared true = .ok declared := by
  obtain ⟨_, -, h⟩ := bind_eq_ok_iff.1 h
  exact validateResourcePrefix_again h

lemma effective_again {override : Option Text}
    (hoverride : ∀ text, override = some text → validateResourcePrefix text false = .ok text)
    (hdeclared : validateResourcePrefix declared true = .ok declared) :
    validateResourcePrefix (override.getD declared) true = .ok (override.getD declared) := by
  cases override with
  | none => exact hdeclared
  | some text => exact validateResourcePrefix_allow (hoverride text rfl)

include hresolve in
lemma install_renewed {records : Records} {source : String} {subdirectory : Text}
    {resourcePrefix : Option Text} {record : Record}
    (hplain : ∀ kept, validateSubdirectory subdirectory = .ok kept →
      kept ≠ ['.'] ∧ strip kept = kept)
    (h : install o env records pluginId source subdirectory resourcePrefix acknowledgeRisk
      = .ok record) : Renewed o records pluginId record := by
  rw [install] at h
  obtain ⟨override, hoverride, h⟩ := bind_eq_ok_iff.1 h
  split at h
  · cases h
  next hnew =>
  obtain ⟨⟨_, _⟩, -, h⟩ := bind_eq_ok_iff.1 h
  obtain ⟨_, -, h⟩ := bind_eq_ok_iff.1 h
  obtain ⟨normalized, hnormalized, h⟩ := bind_eq_ok_iff.1 h
  obtain ⟨package, -, h⟩ := bind_eq_ok_iff.1 h
  obtain ⟨_, hdeclared, h⟩ := bind_eq_ok_iff.1 h
  obtain ⟨⟨⟩, havailable, h⟩ := bind_eq_ok_iff.1 h
  obtain rfl := ok.inj h
  have hoverride' : ∀ text, override = some text → validateResourcePrefix text false = .ok text := by
    rintro text rfl
    cases resourcePrefix with
    | none => simp only [normalizeOverride, Except.ok.injEq, reduceCtorEq] at hoverride
    | some =>
      obtain ⟨kept, hkept, heq⟩ := map_ok.1 hoverride
      obtain rfl := some.inj heq
      exact validateResourcePrefix_again hkept
  obtain ⟨hdot, hstrip⟩ := hplain normalized hnormalized
  refine ⟨⟨validateSubdirectory_again hnormalized hdot hstrip,
    effective_again hoverride' (manifestResourcePrefix_again hdeclared), hoverride',
    fun _ hrevision => ?_, nodup_singleton _⟩, rfl, havailable, fun _ hold => ?_⟩
  · rw [mem_singleton.1 hrevision]
    exact placeCheckout_valid hresolve pluginId package
  exact absurd ((has_iff records pluginId).2 (by rw [hold]; rfl)) hnew

lemma requireRecord_ok {records : Records} {record : Record} :
    requireRecord records pluginId = .ok record ↔ records.get? pluginId = some record := orError_ok

include hresolve in
lemma update_renewed {records : Records} (hrecords : RecordsOk o records) {source : Option String}
    {subdirectory : Option Text} {record : Record}
    (h : update o env records pluginId source subdirectory acknowledgeRisk = .ok record) :
    Renewed o records pluginId record := by
  rw [update] at h
  obtain ⟨current, hcurrent, h⟩ := bind_eq_ok_iff.1 h
  rw [requireRecord_ok] at hcurrent
  have hvalid := hrecords.valid _ (mem_of_get? hcurrent)
  obtain ⟨⟨_, _⟩, -, h⟩ := bind_eq_ok_iff.1 h
  simp only at h
  split at h
  · cases h
  obtain ⟨_, -, h⟩ := bind_eq_ok_iff.1 h
  obtain ⟨_, -, h⟩ := bind_eq_ok_iff.1 h
  split at h
  · cases h
  next hsame =>
  rw [not_not] at hsame
  subst hsame
  obtain ⟨package, -, h⟩ := bind_eq_ok_iff.1 h
  obtain ⟨_, hdeclared, h⟩ := bind_eq_ok_iff.1 h
  obtain ⟨⟨⟩, havailable, h⟩ := bind_eq_ok_iff.1 h
  obtain rfl := ok.inj h
  obtain ⟨hnodup, hkept, hmem⟩ := prependUniqueRevision_keys current.activeRevision
    current.history (placeCheckout o pluginId package)
  refine ⟨⟨hvalid.subdirectory,
    effective_again hvalid.override (manifestResourcePrefix_again hdeclared), hvalid.override,
    fun revision hrevision => ?_, hnodup⟩, rfl, havailable, fun _ hold _ hkey => ?_⟩
  · rcases mem_cons.1 hrevision with rfl | hold
    · exact placeCheckout_valid hresolve pluginId package
    exact hvalid.revisions revision (hmem revision hold)
  obtain rfl := some.inj (hcurrent.symm.trans hold)
  obtain ⟨revision, hrevision, rfl⟩ := mem_map.1 hkey
  exact hkept revision hrevision

lemma rollback_renewed {records : Records} (hrecords : RecordsOk o records)
    {commit : Option String} {record : Record}
    (h : rollback env records pluginId commit = .ok record) :
    Renewed o records pluginId record := by
  rw [rollback] at h
  obtain ⟨current, hcurrent, h⟩ := bind_eq_ok_iff.1 h
  rw [requireRecord_ok] at hcurrent
  have hmemCurrent := mem_of_get? hcurrent
  have hvalid := hrecords.valid _ hmemCurrent
  split at h
  · cases h
  obtain ⟨target, htarget, h⟩ := bind_eq_ok_iff.1 h
  have hin : target ∈ current.history := mem_of_find?_eq_some (orError_ok.1 htarget)
  split at h
  · cases h
  split at h
  · cases h
  obtain ⟨_, hdeclared, h⟩ := bind_eq_ok_iff.1 h
  obtain ⟨⟨⟩, havailable, h⟩ := bind_eq_ok_iff.1 h
  obtain rfl := ok.inj h
  obtain ⟨hnodup, hkept, hmem⟩ := prependUniqueRevision_keys current.activeRevision
    (current.history.filter (fun item => item ≠ target)) target
  refine ⟨⟨hvalid.subdirectory,
    effective_again hvalid.override (manifestResourcePrefix_again hdeclared),
    hvalid.override, fun revision hrevision => ?_, hnodup⟩,
    (hrecords.named _ hmemCurrent).2, havailable, fun _ hold _ hkey => ?_⟩
  · rcases mem_cons.1 hrevision with rfl | hold
    · exact hvalid.revisions _ (mem_cons_of_mem _ hin)
    rcases mem_cons.1 (hmem revision hold) with rfl | hold
    · exact hvalid.revisions _ mem_cons_self
    exact hvalid.revisions _ (mem_cons_of_mem _ (mem_of_mem_filter hold))
  obtain rfl := some.inj (hcurrent.symm.trans hold)
  obtain ⟨revision, hrevision, rfl⟩ := mem_map.1 hkey
  by_cases heq : revision = target
  · exact heq ▸ mem_cons_self
  apply hkept
  rcases mem_cons.1 hrevision with rfl | hrest
  · exact mem_cons_self
  exact mem_cons_of_mem _ (mem_filter.2 ⟨hrest, by simpa using heq⟩)

lemma setPendingAction_renewed {records : Records} (hrecords : RecordsOk o records)
    {action : Option Action} {record : Record}
    (h : setPendingAction records pluginId action = .ok record) :
    Renewed o records pluginId record := by
  rw [setPendingAction] at h
  obtain ⟨current, hcurrent, h⟩ := bind_eq_ok_iff.1 h
  rw [requireRecord_ok] at hcurrent
  obtain rfl := ok.inj h
  have hmem := mem_of_get? hcurrent
  have hvalid := hrecords.valid _ hmem
  refine ⟨⟨hvalid.subdirectory, hvalid.resource, hvalid.override, hvalid.revisions, hvalid.keys⟩,
    (hrecords.named _ hmem).2, ensureResourcePrefixAvailable_ok.2 ?_, fun _ hold => ?_⟩
  · by_cases hempty : current.resourcePrefix = []
    · exact .inl hempty
    exact .inr fun e he hne heq =>
      hrecords.distinct _ hmem e he (fun hid => hne hid.symm) hempty heq.symm
  obtain rfl := some.inj (hcurrent.symm.trans hold)
  exact List.Subset.refl _

lemma Renewed.carries {records : Records} {record : Record}
    (h : Renewed o records pluginId record) {other : Text} (hold : records.get? other = some old)
    (hnew : (records.set pluginId record).get? other = some new) :
    old.revisionKeys ⊆ new.revisionKeys := by
  rw [get?_set] at hnew
  split at hnew
  · next heq =>
    subst heq
    obtain rfl := some.inj hnew
    exact h.kept old hold
  obtain rfl := some.inj (hold.symm.trans hnew)
  exact List.Subset.refl _

lemma mem_applyPending {records : Records} {e : Text × Record} (h : e ∈ applyPending records) :
    ∃ record, (e.1, record) ∈ records ∧ e.2 = { record with pendingAction := none } := by
  obtain ⟨old, hold, rfl⟩ := mem_map.1 h
  exact ⟨old.2, mem_of_mem_filter hold, rfl⟩

lemma applyPending_ok {records : Records} (h : RecordsOk o records) :
    RecordsOk o (applyPending records) := by
  constructor
  · have hkeys : (applyPending records).keys
        = (records.filter (fun e => !e.2.pendingRemove)).map Prod.fst := by
      rw [applyPending, Dict.keys, map_map]
      rfl
    rw [hkeys]
    exact (filter_sublist.map Prod.fst).nodup h.nodup
  · intro e he
    obtain ⟨record, hrecord, heq⟩ := mem_applyPending he
    rw [heq]
    exact h.named _ hrecord
  · intro e he
    obtain ⟨record, hrecord, heq⟩ := mem_applyPending he
    have hvalid := h.valid _ hrecord
    rw [heq]
    exact ⟨hvalid.subdirectory, hvalid.resource, hvalid.override, hvalid.revisions, hvalid.keys⟩
  intro e he _ he' hne
  obtain ⟨record, hrecord, heq⟩ := mem_applyPending he
  obtain ⟨_, hrecord', heq'⟩ := mem_applyPending he'
  rw [heq, heq']
  exact h.distinct _ hrecord _ hrecord' hne

lemma applyPending_carries {records : Records} (h : RecordsOk o records)
    (hold : records.get? pluginId = some old)
    (hnew : (applyPending records).get? pluginId = some new) :
    old.revisionKeys ⊆ new.revisionKeys := by
  obtain ⟨_, hrecord, heq⟩ := mem_applyPending (mem_of_get? hnew)
  obtain rfl := some.inj (hold.symm.trans (get?_of_mem h.nodup hrecord))
  obtain rfl : new = { old with pendingAction := none } := heq
  exact List.Subset.refl _

/-- **The subdirectory of an installation normalizes to itself.** -/
def Plain : Op → Prop
  | .install _ _ subdirectory _ _ =>
    ∀ kept, validateSubdirectory subdirectory = .ok kept → kept ≠ ['.'] ∧ strip kept = kept
  | _ => True

include hresolve in
lemma perform_ok {records : Records} (hrecords : RecordsOk o records) {op : Op}
    (hplain : Plain op) (h : perform o env records op = .ok (some records')) :
    RecordsOk o records' ∧ ∀ pluginId old new, records.get? pluginId = some old →
      records'.get? pluginId = some new → old.revisionKeys ⊆ new.revisionKeys := by
  have hset : ∀ {raw pluginId : Text} {record : Record}, validatePluginId raw = .ok pluginId →
      Renewed o records pluginId record → records.set pluginId record = records' →
      RecordsOk o records' ∧ ∀ pluginId old new, records.get? pluginId = some old →
        records'.get? pluginId = some new → old.revisionKeys ⊆ new.revisionKeys := by
    rintro raw pluginId record hid hnew rfl
    exact ⟨hrecords.set (validatePluginId_again hid) hnew,
      fun _ _ _ hold hnew' => hnew.carries hold hnew'⟩
  cases op with
  | install pluginId =>
    obtain ⟨pluginId, hid, h⟩ := bind_eq_ok_iff.1 h
    obtain ⟨record, hrecord, h⟩ := bind_eq_ok_iff.1 h
    exact hset hid (install_renewed hresolve hplain hrecord) (some.inj (ok.inj h))
  | update pluginId =>
    obtain ⟨pluginId, hid, h⟩ := bind_eq_ok_iff.1 h
    obtain ⟨record, hrecord, h⟩ := bind_eq_ok_iff.1 h
    exact hset hid (update_renewed hresolve hrecords hrecord) (some.inj (ok.inj h))
  | rollback pluginId =>
    obtain ⟨pluginId, hid, h⟩ := bind_eq_ok_iff.1 h
    obtain ⟨record, hrecord, h⟩ := bind_eq_ok_iff.1 h
    exact hset hid (rollback_renewed hrecords hrecord) (some.inj (ok.inj h))
  | markUninstall pluginId =>
    obtain ⟨pluginId, hid, h⟩ := bind_eq_ok_iff.1 h
    obtain ⟨record, hrecord, h⟩ := bind_eq_ok_iff.1 h
    exact hset hid (setPendingAction_renewed hrecords hrecord) (some.inj (ok.inj h))
  | cancelUninstall pluginId =>
    obtain ⟨pluginId, hid, h⟩ := bind_eq_ok_iff.1 h
    obtain ⟨record, hrecord, h⟩ := bind_eq_ok_iff.1 h
    exact hset hid (setPendingAction_renewed hrecords hrecord) (some.inj (ok.inj h))
  | clearPendingAction pluginId =>
    obtain ⟨pluginId, hid, h⟩ := bind_eq_ok_iff.1 h
    obtain ⟨record, hrecord, h⟩ := bind_eq_ok_iff.1 h
    exact hset hid (setPendingAction_renewed hrecords hrecord) (some.inj (ok.inj h))
  | applyPending =>
    have h := ok.inj h
    split at h
    · obtain rfl := some.inj h
      exact ⟨applyPending_ok hrecords, fun _ _ _ hold hnew => applyPending_carries hrecords hold hnew⟩
    cases h

/-! ## Runs -/

variable (o)

/-- The store: its lock, the records of the last operation that succeeded, and
the keys of all revisions that were active since their plugin was installed. -/
structure Scene where
  lock : Option Document := none
  written : Records := []
  been : List (Text × String × String) := []

def step (s : Scene) (e : Op × Env) : Option Scene :=
  match attempt o e.2 s.lock e.1 with
  | .error _ => some s
  | .ok (lock, records) => some {
      lock := lock
      written := records
      been := s.been.filter (fun b => records.has b.1)
        ++ records.map (fun e => (e.1, e.2.activeRevision.key)) }

/-- **The lock in order.** -/
structure Good (s : Scene) : Prop where
  /-- Reading the lock gives back the records. -/
  readsBack : ∀ manifests, ∃ records,
    readLock o manifests s.lock = .ok records ∧ records.Perm s.written
  /-- Non-empty prefixes are distinct. -/
  distinct : ∀ e ∈ s.written, ∀ e' ∈ s.written, e.1 ≠ e'.1 → e.2.resourcePrefix ≠ [] →
    e.2.resourcePrefix ≠ e'.2.resourcePrefix
  /-- The keys of a history are distinct and do not contain the active one. -/
  history : ∀ e ∈ s.written, (e.2.history.map Revision.key).Nodup
    ∧ e.2.activeRevision.key ∉ e.2.history.map Revision.key
  /-- A revision that was active since the installation is active or in the
  history. -/
  kept : ∀ b ∈ s.been, ∃ record, s.written.get? b.1 = some record
    ∧ (b.2 = record.activeRevision.key ∨ b.2 ∈ record.history.map Revision.key)

/-- What every operation keeps. -/
structure Sound (s : Scene) : Prop where
  readsBack : ∀ manifests, ∃ records,
    readLock o manifests s.lock = .ok records ∧ records.Perm s.written
  ok : RecordsOk o s.written
  kept : ∀ b ∈ s.been, ∃ record, s.written.get? b.1 = some record ∧ b.2 ∈ record.revisionKeys

variable {o} {s : Scene}

lemma Sound.good (h : Sound o s) : Good o s where
  readsBack := h.readsBack
  distinct := h.ok.distinct
  history e he := by
    have hkeys := nodup_cons.1 (h.ok.valid e he).keys
    exact ⟨hkeys.2, hkeys.1⟩
  kept b hb := by
    obtain ⟨record, hrecord, hkey⟩ := h.kept b hb
    exact ⟨record, hrecord, mem_cons.1 hkey⟩

lemma Sound.been (h : Sound o s) {records : Records} (hperm : records.Perm s.written)
    (hok : RecordsOk o records') (hcarries : ∀ pluginId old new, records.get? pluginId = some old →
      records'.get? pluginId = some new → old.revisionKeys ⊆ new.revisionKeys) :
    ∀ b ∈ s.been.filter (fun b => records'.has b.1)
        ++ records'.map (fun e => (e.1, e.2.activeRevision.key)),
      ∃ record, records'.get? b.1 = some record ∧ b.2 ∈ record.revisionKeys := by
  intro b hb
  rcases mem_append.1 hb with hold | hactive
  · obtain ⟨hbeen, hhas⟩ := mem_filter.1 hold
    obtain ⟨new, hnew⟩ := Option.isSome_iff_exists.1 ((has_iff records' b.1).1 hhas)
    obtain ⟨old, hget, hkey⟩ := h.kept b hbeen
    have hold' : records.get? b.1 = some old :=
      get?_of_mem (h.ok.perm hperm).nodup (hperm.mem_iff.2 (mem_of_get? hget))
    exact ⟨new, hnew, hcarries b.1 old new hold' hnew hkey⟩
  obtain ⟨e, he, rfl⟩ := mem_map.1 hactive
  exact ⟨e.2, get?_of_mem hok.nodup he, mem_cons_self⟩

include hresolve in
lemma step_sound (s : Scene) (e : Op × Env) (s' : Scene) (h : Sound o s) (hplain : Plain e.1)
    (hstep : step o s e = some s') : Sound o s' := by
  rw [step] at hstep
  split at hstep
  · obtain rfl := some.inj hstep
    exact h
  next lock records' hattempt =>
  obtain rfl := some.inj hstep
  rw [attempt] at hattempt
  split at hattempt
  · cases hattempt
  obtain ⟨records, hread, hperm⟩ := h.readsBack e.2.manifests
  have hrecords := h.ok.perm hperm
  rw [hread] at hattempt
  simp only at hattempt
  cases hperform : perform o e.2 records e.1 with
  | error =>
    rw [hperform] at hattempt
    cases hattempt
  | ok result =>
    rw [hperform] at hattempt
    cases result with
    | none =>
      -- nothing is written: the records are those just read
      obtain ⟨rfl, rfl⟩ := Prod.mk.inj (ok.inj hattempt)
      refine ⟨fun manifests => ?_, hrecords, h.been hperm hrecords fun _ _ _ hold hnew => ?_⟩
      · obtain ⟨again, hagain, hpermAgain⟩ := h.readsBack manifests
        exact ⟨again, hagain, hpermAgain.trans hperm.symm⟩
      obtain rfl := some.inj (hold.symm.trans hnew)
      exact List.Subset.refl _
    | some renewed =>
      obtain ⟨hok, hcarries⟩ := perform_ok hresolve hrecords hplain hperform
      simp only at hattempt
      split at hattempt
      · cases hattempt
      next document hdocument =>
      split at hattempt
      · obtain ⟨rfl, rfl⟩ := Prod.mk.inj (ok.inj hattempt)
        exact ⟨fun manifests => ⟨_, readLock_document o manifests hok hdocument,
          perm_insertionSort _ _⟩, hok, h.been hperm hok hcarries⟩
      cases hattempt

lemma start_sound : Sound o {} where
  readsBack _ := ⟨[], rfl, List.Perm.refl []⟩
  ok := by
    constructor
    · exact nodup_nil
    all_goals exact nofun
  kept b hb := absurd hb not_mem_nil

include hresolve in
/-- **The lock of the store over whole runs.**  Whatever the operations and
wherever they fail, a failed one leaves the store as it was; and if every
installation is asked for a subdirectory that normalizes to itself, the lock is
in order in every state. -/
theorem store_sound {events : List (Op × Env)} (hplain : ∀ e ∈ events, Plain e.1) :
    (∀ s e err, attempt o e.2 s.lock e.1 = .error err → step o s e = some s)
      ∧ Always (step o) (Good o) {} events := by
  constructor
  · intro s e err herr
    rw [step, herr]
  exact (always_of_along (step_sound hresolve) start_sound (along_of_forall hplain)).mono
    fun _ h => h.good

end

def plainStore : Outside where
  root := ["srv", "plugins"]
  resolve place := place
  canonicalize source := .ok (source, .git)
  isOfficial _ := true

def calm : Env where
  package := .ok
    { commit := "0123456789abcdef0123456789abcdef01234567"
      digest := "0123456789abcdef0123456789abcdef0123456789abcdef0123456789abcdef"
      requestedRef := "HEAD"
      commit_ok := by decide
      digest_ok := by decide }
  manifests _ := .ok ['t', 'o', 'o', 'l']

def installTool (subdirectory : Text) : Op :=
  .install ['t', 'o', 'o', 'l'] "https://example/tool" subdirectory none false

/-- A tool is installed from a subdirectory, updated, rolled back in vain, marked
and removed. -/
theorem store_sound_tool : Always (step plainStore) (Good plainStore) {}
      [(installTool ['a', '/', 'b'], calm), (.update ['t', 'o', 'o', 'l'] none none false, calm),
        (.rollback ['t', 'o', 'o', 'l'] none, calm), (.markUninstall ['t', 'o', 'o', 'l'], calm),
        (.applyPending, calm)] := by
  have hinstall : Plain (installTool ['a', '/', 'b']) := by
    intro _ hkept
    obtain rfl := ok.inj hkept
    decide
  apply (store_sound (o := plainStore) (fun _ => rfl) ?_).2
  intro _ he
  simp only [mem_cons, not_mem_nil, or_false] at he
  rcases he with rfl | rfl | rfl | rfl | rfl
  · exact hinstall
  all_goals trivial

/-- **A tool installed from `./.`** is written with the subdirectory `.` and read
back with none. -/
theorem dotSubdirectory_readsEmpty :
    ∃ s, run (step plainStore) {} [(installTool ['.', '/', '.'], calm)] = some s
      ∧ s.written.map (fun e => e.2.subdirectory) = [['.']]
      ∧ (readLock plainStore calm.manifests s.lock).toOption.map
          (fun records => records.map (fun e => e.2.subdirectory)) = some [[]]
      ∧ ¬ Good plainStore s := by
  refine ⟨_, rfl, by decide, by decide, fun hgood => ?_⟩
  obtain ⟨records, hread, hperm⟩ := hgood.readsBack calm.manifests
  have hsubdirectories : records.map (fun e => e.2.subdirectory) = [[]] := by
    obtain rfl := ok.inj hread
    decide
  have hsame := hperm.map (fun e => e.2.subdirectory)
  rw [hsubdirectories] at hsame
  revert hsame
  decide

end DeterminFlow.Plugins.Store
