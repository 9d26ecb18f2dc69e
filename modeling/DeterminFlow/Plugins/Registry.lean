/-
  Plugins.Registry
  **WHAT A REGISTRY MANIFEST CAN RAISE.**

  The store falls back to git on a `PluginRegistryError`.  The parser turns
  every unusable field into one, but for the address of a package: `urlsplit`
  and its port raise a `ValueError` of their own.
-/
import DeterminFlow.Library.PyJson
import DeterminFlow.Plugins.SourceCanonical

namespace DeterminFlow.Plugins.Registry

open Library PyText UrlSplit Plugins.Store Except
open Plugins.SourceCanonical (hostOf pathText urlText plainUnicode)

/-! ## The parser -/

inductive Raised where
  /-- `PluginRegistryError` -/
  | registry (message : String)
  /-- `ValueError` -/
  | value (error : UrlError)

/-- `urljoin` with the address of the registry, what Python says of a value as
a text, and whether a float is one. -/
structure Outside (F : Type) where
  unicode : Unicode
  format : PyFormat F
  urljoin : Text → Text → Except UrlError Text
  isOne : F → Bool

variable {F : Type} (o : Outside F)

def https : Text := ['h', 't', 't', 'p', 's']

/-- The checks of `canonicalize_registry_url` in front of the port. -/
def refusal (split : SplitResult) : Option String :=
  if split.scheme ≠ https then some "Registry URL 必须是 HTTPS"
  else if hostOf o.unicode split.netloc = [] then some "Registry URL 无效"
  else if (credentials split.netloc).1.isSome then some "Registry URL 不得包含凭据"
  else if split.query ≠ [] ∨ split.fragment ≠ [] then
    some "Registry URL 不得包含 query 或 fragment"
  else none

def canonicalizeRegistryUrl (url : Text) : Except Raised Text :=
  match urlsplit o.unicode (strip url) with
  | .error e => .error (.value e)
  | .ok split =>
    match refusal o split, port split.netloc with
    | some message, _ => .error (.registry message)
    | none, .error e => .error (.value e)
    | none, .ok port =>
      .ok (urlText https (hostOf o.unicode split.netloc ++ portText (port.filter (· ≠ 443)))
        (pathText split.path))

variable (registryUrl : Text)

/-- The address itself, or `registry_object_url` where it has no scheme. -/
def objectUrl (raw : Text) : Except UrlError Text :=
  match urlsplit o.unicode raw with
  | .error e => .error e
  | .ok split =>
    if split.scheme ≠ [] then .ok raw
    else
      o.urljoin (if registryUrl.getLast? = some '/' then registryUrl else registryUrl ++ ['/']) raw

def resolvePackageUrl (packageUrl : Text) : Except Raised Text :=
  if strip packageUrl = [] then .error (.registry "Registry 包地址不能为空")
  else
    match objectUrl o registryUrl (strip packageUrl) with
    | .error e => .error (.value e)
    | .ok url => canonicalizeRegistryUrl o url

def validatePluginRef (ref : Text) : Except String Text :=
  let normalized := strip ref
  if normalized = [] ∨ 512 < normalized.length
      ∨ normalized.any (fun c => c.toNat < 32 || c.toNat == 127) = true then
    .error "invalid Git ref"
  else .ok normalized

/-- A `RegistryPlugin`, with the address of the package as it is given. -/
structure RegistryPlugin where
  pluginId : Text
  name : Text
  version : Text
  description : Text
  subdirectory : Text
  ref : Text
  commit : String
  packageUrl : Text
  packageSha256 : String
  contentSha256 : String

structure RegistryManifest where
  source : Text
  ref : Text
  resolvedCommit : String
  plugins : List RegistryPlugin

def lowered (commit : String) : String := commit.map Char.toLower

def textOf (value : PyJson F) : Text := (value.toText o.format).toList

/-- `document.get(key)`, which must be a text that passes a check. -/
def textField (accepts : String → Bool) (message : String) (document : List (String × PyJson F))
    (key : String) : Except String String :=
  match Dict.get? document key with
  | some (.str text) => if accepts text then .ok text else .error message
  | _ => .error message

def isAny (_ : String) : Bool := true

def identity (item : List (String × PyJson F)) : Except String (Text × Text × Text) := do
  let pluginId ← match Dict.get? item "id" with
    | some id => validatePluginId (textOf o id)
    | none => .error "id"
  let subdirectory ← validateSubdirectory
    (textOf o ((Dict.get? item "subdirectory").getD (.str "")))
  let ref ← textField isAny "ref" item "ref"
  return (pluginId, subdirectory, ← validatePluginRef ref.toList)

/-- `_parse_registry_plugin` up to the address of the package. -/
def readPlugin : PyJson F → Except String RegistryPlugin
  | .dict item => do
    let (pluginId, subdirectory, ref) ←
      (identity o item).mapError fun _ => "Registry 清单 Plugin 身份无效"
    let of (message : String) : String := message ++ ": " ++ String.ofList pluginId
    let name ← textField hasText (of "Registry 清单缺少名称") item "name"
    let version ← textField hasText (of "Registry 清单缺少版本") item "version"
    let description ← if (Dict.get? item "description").isNone then .ok "" else
      textField isAny (of "Registry 清单描述无效") item "description"
    let commit ← textField isCommit (of "Registry 清单 commit 无效") item "commit"
    let digest ← textField isDigest (of "Registry 清单 content_sha256 无效") item "content_sha256"
    match Dict.get? item "package" with
    | some (.dict package) => do
      let url ← textField hasText (of "Registry 清单 package.url 无效") package "url"
      let sha256 ← textField isDigest (of "Registry 清单 package.sha256 无效") package "sha256"
      return {
        pluginId := pluginId
        name := stripChars name
        version := stripChars version
        description := stripChars description
        subdirectory := subdirectory
        ref := ref
        commit := lowered commit
        packageUrl := url.toList
        packageSha256 := sha256
        contentSha256 := digest }
    | _ => .error (of "Registry 清单 package 无效")
  | _ => .error "Registry 清单 Plugin 必须是 object"

def parseRegistryPlugin (item : PyJson F) : Except Raised RegistryPlugin :=
  match readPlugin o item with
  | .error message => .error (.registry message)
  | .ok plugin =>
    match resolvePackageUrl o registryUrl plugin.packageUrl with
    | .error (.registry _) =>
      .error (.registry ("Registry 清单 package.url 无效: " ++ String.ofList plugin.pluginId))
    | .error (.value e) => .error (.value e)
    | .ok url => .ok { plugin with packageUrl := url }

/-- The loop of `parse_registry_manifest`, with `seen`. -/
def parsePlugins (seen : List Text) :
    List (PyJson F) → Except Raised (List RegistryPlugin)
  | [] => .ok []
  | item :: rest =>
    match parseRegistryPlugin o registryUrl item with
    | .error e => .error e
    | .ok plugin =>
      if seen.contains plugin.pluginId then
        .error (.registry ("Registry 清单包含重复 Plugin: " ++ String.ofList plugin.pluginId))
      else (parsePlugins (plugin.pluginId :: seen) rest).map (plugin :: ·)

def isSchemaVersion : PyJson F → Bool
  | .int i => i == 1
  | .bool b => b
  | .float f => o.isOne f
  | _ => false

/-- `parse_registry_manifest` up to its loop: source, ref, commit and plugins. -/
def readHead : PyJson F → Except String (Text × Text × String × List (PyJson F))
  | .dict document => do
    if (Dict.get? document "schema_version").any (isSchemaVersion o) = false then
      .error "Registry 清单版本不受支持"
    else
      let source ← textField hasText "Registry 清单缺少 source" document "source"
      let ref ← (validatePluginRef (textOf o ((Dict.get? document "ref").getD .null))).mapError
        fun _ => "Registry 清单 ref 无效"
      let commit ← textField isCommit "Registry 清单 resolved_commit 无效" document "resolved_commit"
      match Dict.get? document "plugins" with
      | some (.list (item :: rest)) =>
        return (stripChars source, ref, lowered commit, item :: rest)
      | _ => .error "Registry 清单 plugins 必须是非空数组"
  | _ => .error "Registry 清单必须是 object"

def parseRegistryManifest (document : PyJson F) : Except Raised RegistryManifest :=
  match readHead o document with
  | .error message => .error (.registry message)
  | .ok (source, ref, commit, items) =>
    (parsePlugins o registryUrl [] items).map fun plugins => ⟨source, ref, commit, plugins⟩

/-! ## Which addresses raise -/

/-- It succeeds, or raises the error on which the store falls back. -/
def Settles {α : Type} (outcome : Except Raised α) : Prop :=
  (∃ value, outcome = .ok value) ∨ ∃ message, outcome = .error (.registry message)

/-- An address that does not split, or has nothing wrong with it but its port. -/
def UrlRaises (url : Text) : Prop :=
  match urlsplit o.unicode (strip url) with
  | .error _ => True
  | .ok split => refusal o split = none ∧ (port split.netloc).toOption = none

def PackageRaises (packageUrl : Text) : Prop :=
  strip packageUrl ≠ [] ∧
    match objectUrl o registryUrl (strip packageUrl) with
    | .error _ => True
    | .ok url => UrlRaises o url

/-- No address raises that the loop comes to: the fields in front of it pass,
and every plugin before it was taken. -/
def AddressesReadable : List Text → List (PyJson F) → Prop
  | _, [] => True
  | seen, item :: rest => ∀ plugin, readPlugin o item = .ok plugin →
      ¬ PackageRaises o registryUrl plugin.packageUrl ∧
        ((resolvePackageUrl o registryUrl plugin.packageUrl).toOption.isSome →
          plugin.pluginId ∉ seen →
          AddressesReadable (plugin.pluginId :: seen) rest)

/-! ## What the parser raises -/

variable {o registryUrl} {α β : Type}

lemma settles_ok (value : α) : Settles (.ok value) := .inl ⟨value, rfl⟩

lemma settles_registry (message : String) :
    Settles (.error (.registry message) : Except Raised α) := .inr ⟨message, rfl⟩

lemma not_settles (e : UrlError) : ¬ Settles (error (.value e) : Except Raised α) := by
  rintro (⟨value, h⟩ | ⟨message, h⟩) <;> cases h

lemma settles_map (f : α → β) (outcome : Except Raised α) :
    Settles (outcome.map f) ↔ Settles outcome := by
  rcases outcome with (message | e) | value
  · exact iff_of_true (settles_registry message) (settles_registry message)
  · exact iff_of_false (not_settles e) (not_settles e)
  exact iff_of_true (settles_ok _) (settles_ok _)

lemma canonicalizeRegistryUrl_settles_iff (url : Text) :
    Settles (canonicalizeRegistryUrl o url) ↔ ¬ UrlRaises o url := by
  unfold canonicalizeRegistryUrl UrlRaises
  rcases urlsplit o.unicode (strip url) with e | split
  · simp [not_settles]
  rcases hrefusal : refusal o split with _ | message
  · rcases hport : port split.netloc with e | p
    · simp [hrefusal, hport, not_settles, Except.toOption]
    simp [hrefusal, hport, settles_ok, Except.toOption]
  simp [hrefusal, settles_registry]

lemma resolvePackageUrl_settles_iff (packageUrl : Text) :
    Settles (resolvePackageUrl o registryUrl packageUrl) ↔
      ¬ PackageRaises o registryUrl packageUrl := by
  unfold resolvePackageUrl PackageRaises
  by_cases hraw : strip packageUrl = []
  · simp [hraw, settles_registry]
  rcases objectUrl o registryUrl (strip packageUrl) with e | url
  · simp [hraw, not_settles]
  simp [hraw, canonicalizeRegistryUrl_settles_iff]

/-- **The loop**: it raises exactly at an address that raises. -/
theorem parsePlugins_settles_iff (items : List (PyJson F)) : ∀ seen,
    Settles (parsePlugins o registryUrl seen items) ↔ AddressesReadable o registryUrl seen items := by
  induction items with
  | nil => exact fun seen => iff_of_true (settles_ok _) trivial
  | cons item rest ih =>
    intro seen
    rw [parsePlugins, AddressesReadable, parseRegistryPlugin]
    rcases readPlugin o item with message | plugin
    · exact iff_of_true (settles_registry message) (by simp)
    simp only [ok.injEq, forall_eq', ← resolvePackageUrl_settles_iff]
    rcases resolvePackageUrl o registryUrl plugin.packageUrl with (message | e) | url
    · exact iff_of_true (settles_registry _) ⟨settles_registry message, by simp [Except.toOption]⟩
    · exact iff_of_false (not_settles e) fun h => not_settles e h.1
    by_cases hseen : plugin.pluginId ∈ seen
    · simp [hseen, settles_registry, settles_ok]
    simp only [List.contains_iff_mem, hseen, if_false, settles_map, settles_ok,
      Except.toOption, Option.isSome_some, not_false_eq_true, true_and, forall_const, ← ih]

/-- **Every manifest**: parsing it succeeds or raises a `PluginRegistryError`,
exactly when no address raises that its loop comes to. -/
theorem parseRegistryManifest_settles_iff (o : Outside F) (registryUrl : Text)
    (document : PyJson F) : Settles (parseRegistryManifest o registryUrl document) ↔
      ∀ head, readHead o document = .ok head →
        AddressesReadable o registryUrl [] head.2.2.2 := by
  rw [parseRegistryManifest]
  rcases readHead o document with message | ⟨source, ref, commit, items⟩
  · exact iff_of_true (settles_registry message) (by simp)
  simp only [settles_map, ok.injEq, forall_eq', parsePlugins_settles_iff]

def zeros (length : Nat) : PyJson Unit := .str (String.ofList (List.replicate length '0'))

/-- A package at a port that no machine has. -/
def farPort : PyJson Unit :=
  .dict [("schema_version", .int 1), ("source", .str "https://h/r"), ("ref", .str "main"),
    ("resolved_commit", zeros 40),
    ("plugins", .list [.dict [("id", .str "tool"), ("ref", .str "main"), ("name", .str "Tool"),
      ("version", .str "1"), ("commit", zeros 40), ("content_sha256", zeros 64),
      ("package", .dict [("url", .str "https://h:99999/p.zip"), ("sha256", zeros 64)])]])]

/-- A port out of range is no `PluginRegistryError`. -/
theorem farPort_raises : ¬ ∀ (o : Outside Unit) (registryUrl : Text) (document : PyJson Unit),
    Settles (parseRegistryManifest o registryUrl document) := by
  intro hall
  have h := hall ⟨plainUnicode, ⟨fun _ => "", fun _ => true, fun _ => ""⟩, fun _ url => .ok url,
    fun _ => false⟩ "https://h/".toList farPort
  exact not_settles .portRange h

end DeterminFlow.Plugins.Registry
