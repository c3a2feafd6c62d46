import Mottainai.JsonUpdates

/-!
# Deployment descriptors

The identity graph of a release. Digests and revisions are brought to lower case before they are
tested; what the schema cannot say of one property alone is tested on the whole descriptor. The
canonical text sorts the packages by their ids alone, and the schema admits two packages with one
id. So the identity does not depend on the order of the packages exactly if no two different
packages have one id. Parsing the text always gives back the identity.
-/

namespace Mottainai.DeploymentDescriptors

open JavaScriptValues JsonValues JsonValues.Schema

def contractId : String := "mottainai.deployment.v1"

def schemaVersion : String := "1"

def profileId : String := "linux-x86_64"

def deploymentArchitecture : String := "x86_64-linux"

section Texts

/-- `GIT_SHA` on a text in lower case. -/
def isGitSha (cs : List Char) : Bool := decide (cs.length = 40) && cs.all isHexDigit

/-- `OCI_DIGEST` on a text in lower case. Where case is ignored, `ſ` is an `s`. -/
def isOciDigest : List Char → Bool
  | c :: 'h' :: 'a' :: '2' :: '5' :: '6' :: ':' :: cs => (c = 's' || c = 'ſ') && isHexSha256 cs
  | _ => false

/-- `0|[1-9][0-9]*`, and what follows. -/
def afterNumericIdentifier (cs : List Char) : Option (List Char) :=
  match cs.takeWhile Char.isDigit with
  | [] => none
  | '0' :: _ :: _ => none
  | _ => some (cs.dropWhile Char.isDigit)

/-- `\.(0|[1-9][0-9]*)`, and what follows. -/
def afterDotted : List Char → Option (List Char)
  | '.' :: cs => afterNumericIdentifier cs
  | _ => none

/-- `[0-9A-Za-z.-]`. -/
def isSemverTail (c : Char) : Bool := c.isAlphanum || c = '.' || c = '-'

/-- A suffix `[0-9A-Za-z.-]+` after its sign, which may be missing, and what follows. -/
def afterSuffix (sign : Char) : List Char → Option (List Char)
  | [] => some []
  | c :: cs =>
      if c ≠ sign then some (c :: cs)
      else if cs.takeWhile isSemverTail = [] then none else some (cs.dropWhile isSemverTail)

/-- `SEMVER`. -/
def isSemver (cs : List Char) : Bool :=
  ((afterNumericIdentifier cs).bind afterDotted |>.bind afterDotted |>.bind (afterSuffix '-')
    |>.bind (afterSuffix '+')) = some []

/-- `^sha(?:256|512)-[A-Za-z0-9+/=]+$`. -/
def isIntegrity : List Char → Bool
  | 's' :: 'h' :: 'a' :: a :: b :: c :: '-' :: cs =>
      ([a, b, c] = ['2', '5', '6'] || [a, b, c] = ['5', '1', '2']) && !cs.isEmpty &&
        cs.all fun c => c.isAlphanum || c = '+' || c = '/' || c = '='
  | _ => false

/-- `value.toLowerCase()` for a string. A text with a letter beyond `A` to `Z` that has a lower
case is none of the texts that are tested afterwards. -/
def lowerCase : JsonValue → JsonValue
  | .string text => .string (String.ofList (text.toList.map Char.toLower))
  | value => value

end Texts

section Parts

variable (isUrl : String → Bool)

/-- `HEX_SHA256` on a text in lower case. -/
def sha256Schema : Schema := Schema.string isHexSha256

def sourceRevision : Schema := Schema.string isGitSha

def version : Schema := sized 0 128 isSemver

def boundedUrl : Schema := sized 0 4096 fun cs => isUrl (String.ofList cs)

/-- `z.number().int().positive().max(max)`. -/
def positiveUpTo (max : ℕ) : Schema :=
  number fun d => d.isInteger && d.atLeast 1 && d.atMost max

def releaseSchema : Schema := object [required "version" version,
  required "tag" (sized 1 128 anyText), required "sourceRevision" sourceRevision]

def route1PayloadIdentitySchema : Schema := object [
  required "packageName" (oneOf ["mottainai"]), required "version" version,
  required "sourceRevision" sourceRevision, required "filename" (sized 1 256 anyText),
  required "sha256" sha256Schema, required "integrity" (sized 0 256 isIntegrity),
  required "locator" (boundedUrl isUrl)]

def route1Schema : Schema := object [required "payload" (route1PayloadIdentitySchema isUrl)]

def managedPackageSchema : Schema := object [required "packageId" (sized 1 128 anyText),
  required "version" version, required "flakeRef" (sized 1 4096 anyText),
  required "sourceSha256" sha256Schema]

def managedGenerationSchema : Schema := object [
  required "contractId" (oneOf ["mottainai.managed-generation.v1"]),
  required "schemaVersion" (literalNumber "1"), required "version" version,
  required "sourceRevision" sourceRevision, required "identity" sha256Schema,
  required "flakeLockSha256" sha256Schema, required "applicationPayloadSha256" sha256Schema,
  required "packages" (arrayOf 1 64 managedPackageSchema)]

def route2Schema : Schema := object [required "managedGeneration" managedGenerationSchema]

def applianceSchema : Schema := object [
  required "contractId" (oneOf ["mottainai.linux-runtime-appliance.v1"]),
  required "schemaVersion" (literalNumber "1"),
  required "architecture" (oneOf [deploymentArchitecture]), required "version" version,
  required "sourceRevision" sourceRevision, required "registry" (sized 1 255 anyText),
  required "repository" (sized 1 255 anyText), required "digest" (Schema.string isOciDigest),
  required "rawSha256" sha256Schema,
  required "rawSizeBytes" (positiveUpTo (8 * 1024 * 1024 * 1024)),
  required "manifestSha256" sha256Schema, optional "locator" (boundedUrl isUrl)]

def route3Schema : Schema := object [required "appliance" (applianceSchema isUrl),
  required "managedGenerationIdentity" sha256Schema]

def providerArtifactSchema : Schema := object [required "version" version,
  required "architecture" (oneOf ["x86_64"]), required "filename" (sized 1 256 anyText),
  required "sha256" sha256Schema,
  optional "sizeBytes" (positiveUpTo (2 * 1024 * 1024 * 1024)),
  required "locator" (boundedUrl isUrl)]

def mottainaiInitSchema : Schema := object [required "version" version,
  required "sourceRevision" sourceRevision,
  required "architecture" (oneOf [deploymentArchitecture]),
  required "filename" (sized 1 256 anyText), required "sha256" sha256Schema,
  required "locator" (boundedUrl isUrl)]

def provisioningSchema : Schema := object [
  required "strategy" (oneOf ["pinned-verified-archives", "explicit-adoption"]),
  required "contractVersion" (literalNumber "1"),
  required "stateDirectory" (sized 1 4096 anyText)]

def qemuSchema : Schema := object [required "version" version,
  required "architecture" (oneOf ["x86_64"]), required "identity" sha256Schema,
  required "identityKind" (oneOf ["compatibility-profile", "executable-digest"]),
  optional "systemBinary" (providerArtifactSchema isUrl),
  optional "imageBinary" (providerArtifactSchema isUrl),
  required "dataArtifact" (providerArtifactSchema isUrl), required "minimumVersion" version]

/-- `z.literal(true)`. -/
def literalTrue : Schema
  | .boolean value => value
  | _ => false

/-- `z.number().int().min(1).max(99)`. -/
def majorVersion : Schema := positiveUpTo 99

def compatibilitySchema : Schema := object [required "limaMajor" majorVersion,
  required "qemuMajor" majorVersion, required "requiresKvm" literalTrue]

def providerSchema : Schema := object [required "profileId" (oneOf [profileId]),
  required "architecture" (oneOf [deploymentArchitecture]),
  required "provisioning" provisioningSchema, required "lima" (providerArtifactSchema isUrl),
  required "qemu" (qemuSchema isUrl), required "compatibility" compatibilitySchema]

def route4Schema : Schema := object [required "mottainaiInit" (mottainaiInitSchema isUrl),
  required "provider" (providerSchema isUrl)]

def contractVersionsSchema : Schema := object [required "descriptor" (oneOf [contractId]),
  required "application" (oneOf ["mottainai.npm-payload.v1"]),
  required "managedGeneration" (oneOf ["mottainai.managed-generation.v1"]),
  required "appliance" (oneOf ["mottainai.linux-runtime-appliance.v1"]),
  required "provider" (oneOf ["mottainai.route4-provider-profile.v1"])]

/-- The properties of `DeploymentDescriptorSchema`. -/
def descriptorSchema : Schema := object [required "contractId" (oneOf [contractId]),
  required "schemaVersion" (literalNumber schemaVersion), required "release" releaseSchema,
  required "profile" (oneOf [profileId]),
  required "architecture" (oneOf [deploymentArchitecture]),
  required "contracts" contractVersionsSchema, required "route1" (route1Schema isUrl),
  required "route2" route2Schema, required "route3" (route3Schema isUrl),
  required "route4" (route4Schema isUrl)]

end Parts

section Preprocessing

def preprocessRelease : JsonValue → JsonValue := atProperty "sourceRevision" lowerCase

def preprocessPayload : JsonValue → JsonValue :=
  atProperty "sourceRevision" lowerCase ∘ atProperty "sha256" lowerCase

def preprocessPackage : JsonValue → JsonValue := atProperty "sourceSha256" lowerCase

def preprocessGeneration : JsonValue → JsonValue :=
  atProperty "sourceRevision" lowerCase ∘ atProperty "identity" lowerCase ∘
    atProperty "flakeLockSha256" lowerCase ∘ atProperty "applicationPayloadSha256" lowerCase ∘
    atProperty "packages" (atElements preprocessPackage)

def preprocessAppliance : JsonValue → JsonValue :=
  atProperty "sourceRevision" lowerCase ∘ atProperty "digest" lowerCase ∘
    atProperty "rawSha256" lowerCase ∘ atProperty "manifestSha256" lowerCase

def preprocessArtifact : JsonValue → JsonValue := atProperty "sha256" lowerCase

def preprocessQemu : JsonValue → JsonValue :=
  atProperty "identity" lowerCase ∘ atProperty "systemBinary" preprocessArtifact ∘
    atProperty "imageBinary" preprocessArtifact ∘ atProperty "dataArtifact" preprocessArtifact

def preprocessRoute4 : JsonValue → JsonValue :=
  atProperty "mottainaiInit"
      (atProperty "sourceRevision" lowerCase ∘ atProperty "sha256" lowerCase) ∘
    atProperty "provider" (atProperty "lima" preprocessArtifact ∘ atProperty "qemu" preprocessQemu)

/-- What `z.preprocess` does to a descriptor before its strings are tested. -/
def preprocess : JsonValue → JsonValue :=
  atProperty "release" preprocessRelease ∘
    atProperty "route1" (atProperty "payload" preprocessPayload) ∘
    atProperty "route2" (atProperty "managedGeneration" preprocessGeneration) ∘
    atProperty "route3" (atProperty "appliance" preprocessAppliance ∘
      atProperty "managedGenerationIdentity" lowerCase) ∘
    atProperty "route4" preprocessRoute4

end Preprocessing

section Refinement

/-- An issue that the refinement adds: its path and its message. -/
structure Issue where
  path : List String
  message : String
  deriving DecidableEq

def unlessHolds (condition : Prop) [Decidable condition] (path : List String) (message : String) :
    List Issue := if condition then [] else [⟨path, message⟩]

/-- The artifacts of which the version and the revision are those of the release. -/
def ownedPaths : List (List String) := [["route1", "payload"], ["route2", "managedGeneration"],
  ["route3", "appliance"], ["route4", "mottainaiInit"]]

def ownedIssues (descriptor : JsonValue) (path : List String) : List Issue :=
  unlessHolds (textAt (path ++ ["version"]) descriptor = textAt ["release", "version"] descriptor)
      path "Mottainai-owned artifact version does not match release.version" ++
    unlessHolds (textAt (path ++ ["sourceRevision"]) descriptor =
        textAt ["release", "sourceRevision"] descriptor)
      path "Mottainai-owned artifact sourceRevision does not match release.sourceRevision"

def packagesPath : List String := ["route2", "managedGeneration", "packages"]

/-- `descriptor.route2.managedGeneration.packages`. -/
def packagesOf (descriptor : JsonValue) : List JsonValue := elementsOf (valueAt packagesPath descriptor)

def packageId (entry : JsonValue) : String := textMember entry "packageId"

def mottainaiPackage (descriptor : JsonValue) : Option JsonValue :=
  (packagesOf descriptor).find? fun entry => packageId entry = "mottainai"

def packageIssues (descriptor : JsonValue) : List Issue :=
  unlessHolds ((mottainaiPackage descriptor).map (textMember · "version") =
      some (textAt ["release", "version"] descriptor))
    packagesPath "Route 2 must include the release's exact mottainai package identity"

def qemuPath : List String := ["route4", "provider", "qemu"]

def qemuArtifacts (qemu : JsonValue) : List (String × JsonValue) :=
  ["systemBinary", "imageBinary", "dataArtifact"].filterMap fun name =>
    (member? qemu name).map fun artifact => (name, artifact)

def pairs {α : Type} : List α → List (α × α)
  | [] => []
  | a :: l => l.map (fun b => (a, b)) ++ pairs l

def identicalArtifacts (left right : JsonValue) : Bool :=
  textMember left "sha256" = textMember right "sha256" ||
    textMember left "filename" = textMember right "filename"

/-- `text.split(".")[0]`. -/
def beforeDot (text : String) : String := String.ofList (text.toList.takeWhile (· ≠ '.'))

def qemuIssues (qemu : JsonValue) : List Issue :=
  unlessHolds (textMember qemu "identityKind" = "executable-digest" →
        (member? qemu "systemBinary").isSome ∧ (member? qemu "imageBinary").isSome)
      qemuPath "executable-digest QEMU profiles must bind both executable artifacts" ++
    (qemuArtifacts qemu).flatMap (fun artifact =>
      unlessHolds (textMember artifact.2 "version" = textMember qemu "version")
        (qemuPath ++ [artifact.1, "version"])
        "QEMU artifact version must match the selected QEMU version") ++
    (pairs (qemuArtifacts qemu)).flatMap (fun pair =>
      unlessHolds (identicalArtifacts pair.1.2 pair.2.2 = false) qemuPath
        s!"QEMU {pair.1.1} and {pair.2.1} must identify distinct artifacts") ++
    unlessHolds (beforeDot (textMember qemu "minimumVersion") = beforeDot (textMember qemu "version"))
      (qemuPath ++ ["minimumVersion"])
      "QEMU minimumVersion must be compatible with the selected QEMU major"

/-- The issues of `superRefine`. -/
def refinementIssues (descriptor : JsonValue) : List Issue :=
  unlessHolds (textAt ["release", "tag"] descriptor = "v" ++ textAt ["release", "version"] descriptor)
      ["release", "tag"] "release tag must be v$\x7brelease.version\x7d" ++
    ownedPaths.flatMap (ownedIssues descriptor) ++
    unlessHolds (textAt ["route2", "managedGeneration", "identity"] descriptor =
        textAt ["route3", "managedGenerationIdentity"] descriptor)
      ["route3", "managedGenerationIdentity"]
      "Route 3 must consume Route 2's exact managed-generation identity" ++
    unlessHolds (textAt ["route2", "managedGeneration", "applicationPayloadSha256"] descriptor =
        textAt ["route1", "payload", "sha256"] descriptor)
      ["route2", "managedGeneration", "applicationPayloadSha256"]
      "Route 2 must consume the exact Route 1 payload identity" ++
    packageIssues descriptor ++ qemuIssues (valueAt qemuPath descriptor) ++
    unlessHolds (textAt ["route4", "provider", "provisioning", "strategy"] descriptor =
          "explicit-adoption" →
        isBlank (textAt ["route4", "provider", "provisioning", "stateDirectory"] descriptor) = false)
      ["route4", "provider", "provisioning", "stateDirectory"]
      "provider stateDirectory is required for explicit adoption"

/-- `DeploymentDescriptorSchema` on what was preprocessed. -/
def DeploymentDescriptorSchema (isUrl : String → Bool) : Schema :=
  refined (descriptorSchema isUrl) fun descriptor => (refinementIssues descriptor).isEmpty

def parseDeploymentDescriptor (isUrl : String → Bool) (value : JsonValue) : Option JsonValue :=
  if DeploymentDescriptorSchema isUrl (preprocess value) then some (preprocess value) else none

end Refinement

section Identity

/-- `[...packages].sort((left, right) => compareText(left.packageId, right.packageId))`. -/
def sortPackages (packages : JsonValue) : JsonValue := .array (sortBy packageId (elementsOf packages))

def canonicalizeRoute2 (route2 : JsonValue) : JsonValue :=
  .object [("managedGeneration", atProperty "packages" sortPackages (member route2 "managedGeneration"))]

def canonicalizeDeploymentDescriptor (descriptor : JsonValue) : JsonValue :=
  atProperty "route2" canonicalizeRoute2 descriptor

def canonicalDeploymentDescriptorText (descriptor : JsonValue) : String :=
  stableStringifyValue (canonicalizeDeploymentDescriptor descriptor)

def deploymentDescriptorIdentityOf (sha256 : String → String) (descriptor : JsonValue) : String :=
  sha256 (canonicalDeploymentDescriptorText descriptor)

def withPackages (packages : List JsonValue) : JsonValue → JsonValue :=
  atProperty "route2" (atProperty "managedGeneration" (atProperty "packages" fun _ => .array packages))

/-- The packages are listed in another order, and then the keys of objects are. -/
def Reordered (descriptor descriptor' : JsonValue) : Prop :=
  ∃ packages, packages.Perm (packagesOf descriptor) ∧
    Rekeyed (withPackages packages descriptor) descriptor'

/-- Packages with one id are equal up to the order of keys. -/
def OnePackageForEachId (descriptor : JsonValue) : Prop :=
  ∀ p ∈ packagesOf descriptor, ∀ q ∈ packagesOf descriptor, packageId p = packageId q → Rekeyed p q

/-- The identity stands for the descriptor, up to the order of packages and keys. -/
structure IdentifiedCanonically (sha256 : String → String) (isUrl : String → Bool)
    (descriptor : JsonValue) : Prop where
  unchanged : ∀ descriptor', descriptor'.plain = true → Reordered descriptor descriptor' →
    deploymentDescriptorIdentityOf sha256 descriptor' =
      deploymentDescriptorIdentityOf sha256 descriptor
  determines : ∀ value descriptor', value.plain = true →
    parseDeploymentDescriptor isUrl value = some descriptor' →
    deploymentDescriptorIdentityOf sha256 descriptor' =
      deploymentDescriptorIdentityOf sha256 descriptor → Reordered descriptor descriptor'
  parsed : ∃ value descriptor',
    jsonParse (canonicalDeploymentDescriptorText descriptor) = some value ∧
    parseDeploymentDescriptor isUrl value = some descriptor' ∧
    deploymentDescriptorIdentityOf sha256 descriptor' =
      deploymentDescriptorIdentityOf sha256 descriptor

end Identity

section Preprocessed

variable {isUrl : String → Bool} {v d : JsonValue}

theorem plain_lowerCase (h : v.plain = true) : (lowerCase v).plain = true := by
  cases v with
  | string text => rfl
  | _ => exact h

theorem plain_preprocess (h : v.plain = true) : (preprocess v).plain = true := by
  have hlower : ∀ w, w.plain = true → (lowerCase w).plain = true := fun w => plain_lowerCase
  have hartifact : ∀ w, w.plain = true → (preprocessArtifact w).plain = true :=
    fun w hw => plain_atProperty hw hlower
  simp only [preprocess, Function.comp_apply]
  refine plain_atProperty (plain_atProperty (plain_atProperty (plain_atProperty
    (plain_atProperty h fun w hw => ?_) fun w hw => ?_) fun w hw => ?_) fun w hw => ?_) fun w hw => ?_
  · simp only [preprocessRoute4, Function.comp_apply]
    refine plain_atProperty (plain_atProperty hw fun u hu => ?_) fun u hu => ?_
    · simp only [Function.comp_apply]
      refine plain_atProperty (plain_atProperty hu fun q hq => ?_) hartifact
      simp only [preprocessQemu, Function.comp_apply]
      exact plain_atProperty (plain_atProperty (plain_atProperty (plain_atProperty hq hartifact)
        hartifact) hartifact) hlower
    · exact plain_atProperty (plain_atProperty hu hlower) hlower
  · simp only [Function.comp_apply]
    refine plain_atProperty (plain_atProperty hw hlower) fun u hu => ?_
    simp only [preprocessAppliance, Function.comp_apply]
    exact plain_atProperty (plain_atProperty (plain_atProperty (plain_atProperty hu hlower) hlower)
      hlower) hlower
  · refine plain_atProperty hw fun u hu => ?_
    simp only [preprocessGeneration, Function.comp_apply]
    refine plain_atProperty (plain_atProperty (plain_atProperty (plain_atProperty
      (plain_atProperty hu fun p hp => ?_) hlower) hlower) hlower) hlower
    exact plain_atElements hp fun p hp => plain_atProperty hp hlower
  · exact plain_atProperty hw fun u hu => plain_atProperty (plain_atProperty hu hlower) hlower
  · exact plain_atProperty hw hlower

theorem toLower_of_isHexDigit {c : Char} (h : isHexDigit c = true) : c.toLower = c := by
  have hnot : ¬ (65 ≤ c.val ∧ c.val ≤ 90) := by
    simp only [isHexDigit, Char.isDigit, Bool.or_eq_true, Bool.and_eq_true, decide_eq_true_eq] at h
    rintro ⟨hlow, hhigh⟩
    rcases h with ⟨-, hdigit⟩ | ⟨hletter, -⟩
    · exact (by decide : ¬ (65 : UInt32) ≤ '9'.val) (UInt32.le_trans hlow hdigit)
    · exact (by decide : ¬ 'a'.val ≤ (90 : UInt32)) (UInt32.le_trans hletter hhigh)
  exact dif_neg hnot

theorem fixes_lowerCase {test : List Char → Bool}
    (h : ∀ cs, test cs = true → ∀ c ∈ cs, c.toLower = c) : Fixes (Schema.string test) lowerCase := by
  intro v _ hv
  obtain ⟨text, rfl⟩ := exists_of_string hv
  have hmap : text.toList.map Char.toLower = text.toList :=
    (List.map_congr_left fun c hc => h _ hv c hc).trans (List.map_id _)
  rw [lowerCase, hmap, String.ofList_toList]

theorem toLower_of_isHexSha256 {cs : List Char} (h : isHexSha256 cs = true) :
    ∀ c ∈ cs, c.toLower = c := by
  intro c hc
  rw [isHexSha256, Bool.and_eq_true, List.all_eq_true] at h
  exact toLower_of_isHexDigit (h.2 c hc)

theorem fixes_sha256 : Fixes sha256Schema lowerCase :=
  fixes_lowerCase fun _ => toLower_of_isHexSha256

theorem fixes_sourceRevision : Fixes sourceRevision lowerCase := by
  refine fixes_lowerCase fun cs hcs c hc => ?_
  rw [isGitSha, Bool.and_eq_true, List.all_eq_true] at hcs
  exact toLower_of_isHexDigit (hcs.2 c hc)

theorem fixes_digest : Fixes (Schema.string isOciDigest) lowerCase := by
  refine fixes_lowerCase fun cs hcs => ?_
  unfold isOciDigest at hcs
  split at hcs
  · rename_i c digits
    rw [Bool.and_eq_true, Bool.or_eq_true, decide_eq_true_eq, decide_eq_true_eq] at hcs
    simp only [List.forall_mem_cons]
    refine ⟨?_, rfl, rfl, rfl, rfl, rfl, rfl, toLower_of_isHexSha256 hcs.2⟩
    rcases hcs.1 with rfl | rfl
    · rfl
    · rfl
  · cases hcs

theorem fixes_artifact : Fixes (providerArtifactSchema isUrl) preprocessArtifact :=
  fixes_required (mem_fields 3 rfl) fixes_sha256

theorem fixes_generation : Fixes managedGenerationSchema preprocessGeneration := by
  refine fixes_comp (fixes_required (mem_fields 3 rfl) fixes_sourceRevision) ?_
  refine fixes_comp (fixes_required (mem_fields 4 rfl) fixes_sha256) ?_
  refine fixes_comp (fixes_required (mem_fields 5 rfl) fixes_sha256) ?_
  refine fixes_comp (fixes_required (mem_fields 6 rfl) fixes_sha256) ?_
  refine fixes_required (mem_fields 7 rfl) (fixes_arrayOf ?_)
  exact fixes_required (mem_fields 3 rfl) fixes_sha256

theorem fixes_appliance : Fixes (applianceSchema isUrl) preprocessAppliance := by
  refine fixes_comp (fixes_required (mem_fields 4 rfl) fixes_sourceRevision) ?_
  refine fixes_comp (fixes_required (mem_fields 7 rfl) fixes_digest) ?_
  refine fixes_comp (fixes_required (mem_fields 8 rfl) fixes_sha256) ?_
  exact fixes_required (mem_fields 10 rfl) fixes_sha256

theorem fixes_qemu : Fixes (qemuSchema isUrl) preprocessQemu := by
  refine fixes_comp (fixes_required (mem_fields 2 rfl) fixes_sha256) ?_
  refine fixes_comp (fixes_optional (mem_fields 4 rfl) fixes_artifact) ?_
  refine fixes_comp (fixes_optional (mem_fields 5 rfl) fixes_artifact) ?_
  exact fixes_required (mem_fields 6 rfl) fixes_artifact

theorem fixes_route4 : Fixes (route4Schema isUrl) preprocessRoute4 := by
  refine fixes_comp (fixes_required (mem_fields 0 rfl) ?_) (fixes_required (mem_fields 1 rfl) ?_)
  · exact fixes_comp (fixes_required (mem_fields 1 rfl) fixes_sourceRevision)
      (fixes_required (mem_fields 4 rfl) fixes_sha256)
  · exact fixes_comp (fixes_required (mem_fields 3 rfl) fixes_artifact)
      (fixes_required (mem_fields 4 rfl) fixes_qemu)

/-- What is accepted is in lower case already. -/
theorem fixes_preprocess : Fixes (descriptorSchema isUrl) preprocess := by
  refine fixes_comp (fixes_required (mem_fields 2 rfl) ?_) ?_
  · exact fixes_required (mem_fields 2 rfl) fixes_sourceRevision
  refine fixes_comp (fixes_required (mem_fields 6 rfl) (fixes_required (mem_fields 0 rfl) ?_)) ?_
  · exact fixes_comp (fixes_required (mem_fields 2 rfl) fixes_sourceRevision)
      (fixes_required (mem_fields 4 rfl) fixes_sha256)
  refine fixes_comp (fixes_required (mem_fields 7 rfl)
    (fixes_required (mem_fields 0 rfl) fixes_generation)) ?_
  refine fixes_comp (fixes_required (mem_fields 8 rfl) ?_)
    (fixes_required (mem_fields 9 rfl) fixes_route4)
  exact fixes_comp (fixes_required (mem_fields 0 rfl) fixes_appliance)
    (fixes_required (mem_fields 1 rfl) fixes_sha256)

theorem parseDeploymentDescriptor_eq_some (hv : v.plain = true)
    (h : parseDeploymentDescriptor isUrl v = some d) :
    d.plain = true ∧ DeploymentDescriptorSchema isUrl d = true := by
  rw [parseDeploymentDescriptor] at h
  split_ifs at h with haccepted
  obtain rfl := Option.some.inj h
  exact ⟨plain_preprocess hv, haccepted⟩

theorem parseDeploymentDescriptor_of_accepted (hplain : d.plain = true)
    (h : DeploymentDescriptorSchema isUrl d = true) :
    parseDeploymentDescriptor isUrl d = some d := by
  have hfixed : preprocess d = d := fixes_refined fixes_preprocess d hplain h
  rw [parseDeploymentDescriptor, hfixed, if_pos h]

end Preprocessed

section KeyOrder

variable {isUrl : String → Bool} {v d : JsonValue}

@[simp] theorem keyOrderFree_sha256 : KeyOrderFree sha256Schema := keyOrderFree_string _

@[simp] theorem keyOrderFree_sourceRevision : KeyOrderFree sourceRevision := keyOrderFree_string _

@[simp] theorem keyOrderFree_version : KeyOrderFree version := keyOrderFree_sized 0 128 _

@[simp] theorem keyOrderFree_boundedUrl : KeyOrderFree (boundedUrl isUrl) :=
  keyOrderFree_sized 0 4096 _

@[simp] theorem keyOrderFree_positiveUpTo (max : ℕ) : KeyOrderFree (positiveUpTo max) :=
  keyOrderFree_number _

@[simp] theorem keyOrderFree_literalTrue : KeyOrderFree literalTrue := by
  intro v _ h
  cases v with
  | boolean value => exact h
  | _ => cases h

@[simp] theorem keyOrderFree_artifact : KeyOrderFree (providerArtifactSchema isUrl) :=
  keyOrderFree_object (by simp [required, Schema.optional])

@[simp] theorem keyOrderFree_generation : KeyOrderFree managedGenerationSchema := by
  have hpackage : KeyOrderFree managedPackageSchema :=
    keyOrderFree_object (by simp [required])
  exact keyOrderFree_object (by simp [required, hpackage])

@[simp] theorem keyOrderFree_route3 : KeyOrderFree (route3Schema isUrl) := by
  have happliance : KeyOrderFree (applianceSchema isUrl) :=
    keyOrderFree_object (by simp [required, Schema.optional])
  exact keyOrderFree_object (by simp [required, happliance])

@[simp] theorem keyOrderFree_route4 : KeyOrderFree (route4Schema isUrl) := by
  have hinit : KeyOrderFree (mottainaiInitSchema isUrl) := keyOrderFree_object (by simp [required])
  have hqemu : KeyOrderFree (qemuSchema isUrl) :=
    keyOrderFree_object (by simp [required, Schema.optional])
  have hprovisioning : KeyOrderFree provisioningSchema :=
    keyOrderFree_object (by simp [required])
  have hcompatibility : KeyOrderFree compatibilitySchema :=
    keyOrderFree_object (by simp [required, majorVersion])
  have hprovider : KeyOrderFree (providerSchema isUrl) :=
    keyOrderFree_object (by simp [required, hqemu, hprovisioning, hcompatibility])
  exact keyOrderFree_object (by simp [required, hinit, hprovider])

theorem keyOrderFree_descriptorSchema : KeyOrderFree (descriptorSchema isUrl) := by
  have hrelease : KeyOrderFree releaseSchema := keyOrderFree_object (by simp [required])
  have hpayload : KeyOrderFree (route1PayloadIdentitySchema isUrl) :=
    keyOrderFree_object (by simp [required])
  have hroute1 : KeyOrderFree (route1Schema isUrl) :=
    keyOrderFree_object (by simp [required, hpayload])
  have hroute2 : KeyOrderFree route2Schema := keyOrderFree_object (by simp [required])
  have hcontracts : KeyOrderFree contractVersionsSchema :=
    keyOrderFree_object (by simp [required])
  exact keyOrderFree_object (by simp [required, hrelease, hroute1, hroute2, hcontracts])

end KeyOrder

section Issues

variable {q d : JsonValue} {packages : List JsonValue}

theorem pairs_map {α β : Type} (f : α → β) (l : List α) :
    pairs (l.map f) = (pairs l).map fun pair => (f pair.1, f pair.2) := by
  induction l with
  | nil => rfl
  | cons a l ih =>
    rw [List.map_cons, pairs, pairs, ih, List.map_append, List.map_map, List.map_map]
    rfl

theorem mem_pairs {α : Type} {l : List α} {pair : α × α} (h : pair ∈ pairs l) :
    pair.1 ∈ l ∧ pair.2 ∈ l := by
  induction l with
  | nil => cases h
  | cons a l ih =>
    rw [pairs, List.mem_append, List.mem_map] at h
    rcases h with ⟨b, hb, rfl⟩ | h
    · exact ⟨List.mem_cons_self, List.mem_cons_of_mem a hb⟩
    · exact ⟨List.mem_cons_of_mem a (ih h).1, List.mem_cons_of_mem a (ih h).2⟩

theorem qemuArtifacts_inKeyOrder (h : q.plain = true) :
    qemuArtifacts (inKeyOrder q) = (qemuArtifacts q).map entryInKeyOrder := by
  rw [qemuArtifacts, qemuArtifacts, List.map_filterMap]
  congr 1
  funext name
  rw [member?_inKeyOrder h, Option.map_map, Option.map_map]
  rfl

theorem plain_qemuArtifacts (h : q.plain = true) :
    ∀ artifact ∈ qemuArtifacts q, artifact.2.plain = true := by
  intro artifact hmem
  obtain ⟨name, -, hname⟩ := List.mem_filterMap.1 hmem
  obtain ⟨value, hvalue, rfl⟩ := Option.map_eq_some_iff.1 hname
  exact plain_of_member? h hvalue

theorem qemuIssues_inKeyOrder (h : q.plain = true) :
    qemuIssues (inKeyOrder q) = qemuIssues q := by
  have hplain := plain_qemuArtifacts h
  have hversions : ∀ artifact ∈ qemuArtifacts q,
      textMember (entryInKeyOrder artifact).2 "version" = textMember artifact.2 "version" :=
    fun artifact hmem => textMember_inKeyOrder (hplain artifact hmem) "version"
  have hpairs : ∀ pair ∈ pairs (qemuArtifacts q),
      identicalArtifacts (entryInKeyOrder pair.1).2 (entryInKeyOrder pair.2).2 =
        identicalArtifacts pair.1.2 pair.2.2 := by
    intro pair hmem
    have hleft := hplain _ (mem_pairs hmem).1
    have hright := hplain _ (mem_pairs hmem).2
    simp only [identicalArtifacts, entryInKeyOrder, textMember_inKeyOrder hleft,
      textMember_inKeyOrder hright]
  have hsome : ∀ name, (member? (inKeyOrder q) name).isSome = (member? q name).isSome := by
    intro name
    rw [member?_inKeyOrder h, Option.isSome_map]
  simp only [qemuIssues, textMember_inKeyOrder h, hsome, qemuArtifacts_inKeyOrder h, pairs_map,
    List.flatMap_map]
  congr 2
  · congr 1
    refine List.flatMap_congr fun artifact hmem => ?_
    rw [hversions artifact hmem]
    rfl
  · refine List.flatMap_congr fun pair hmem => ?_
    rw [hpairs pair hmem]
    rfl

theorem packagesOf_inKeyOrder (h : d.plain = true) :
    packagesOf (inKeyOrder d) = (packagesOf d).map inKeyOrder := by
  rw [packagesOf, valueAt_inKeyOrder h, elementsOf_inKeyOrder, packagesOf]

theorem plain_packagesOf (h : d.plain = true) : ∀ p ∈ packagesOf d, p.plain = true :=
  plain_elementsOf (plain_valueAt h packagesPath)

theorem packageIssues_inKeyOrder (h : d.plain = true) :
    packageIssues (inKeyOrder d) = packageIssues d := by
  have hfind : (mottainaiPackage (inKeyOrder d)).map (textMember · "version") =
      (mottainaiPackage d).map (textMember · "version") := by
    have hplain := plain_packagesOf h
    rw [mottainaiPackage, mottainaiPackage, packagesOf_inKeyOrder h]
    generalize packagesOf d = listed at hplain ⊢
    induction listed with
    | nil => rfl
    | cons p ps ih =>
      have hp := hplain p List.mem_cons_self
      rw [List.map_cons, List.find?_cons, List.find?_cons, packageId, packageId,
        textMember_inKeyOrder hp]
      cases decide (textMember p "packageId" = "mottainai") with
      | true => exact congrArg some (textMember_inKeyOrder hp "version")
      | false => exact ih fun q hq => hplain q (List.mem_cons_of_mem p hq)
  rw [packageIssues, hfind, textAt_inKeyOrder h, packageIssues]

theorem refinementIssues_inKeyOrder (h : d.plain = true) :
    refinementIssues (inKeyOrder d) = refinementIssues d := by
  have howned : ownedIssues (inKeyOrder d) = ownedIssues d := by
    funext path
    rw [ownedIssues, textAt_inKeyOrder h, textAt_inKeyOrder h, textAt_inKeyOrder h,
      textAt_inKeyOrder h, ownedIssues]
  simp only [refinementIssues, howned, textAt_inKeyOrder h, packageIssues_inKeyOrder h,
    valueAt_inKeyOrder h, qemuIssues_inKeyOrder (plain_valueAt h qemuPath)]

structure HasPackages (d : JsonValue) : Prop where
  route2 : (member? d "route2").isSome
  generation : (member? (member d "route2") "managedGeneration").isSome
  packages : (member? (valueAt ["route2", "managedGeneration"] d) "packages").isSome
  listed : valueAt packagesPath d = .array (packagesOf d)

theorem packagesOf_withPackages (h : HasPackages d) :
    packagesOf (withPackages packages d) = packages := by
  have hgeneration := h.generation
  have hpackages : (member? (member (member d "route2") "managedGeneration") "packages").isSome :=
    h.packages
  rw [packagesOf, packagesPath, withPackages, valueAt_atProperty h.route2, if_pos rfl,
    valueAt_atProperty hgeneration, if_pos rfl, valueAt_atProperty hpackages, if_pos rfl]
  rfl

/-- Other packages make no difference, as long as the first of `mottainai` is the same. -/
theorem refinementIssues_withPackages (h : HasPackages d)
    (hfirst : mottainaiPackage (withPackages packages d) = mottainaiPackage d) :
    refinementIssues (withPackages packages d) = refinementIssues d := by
  have hgeneration := h.generation
  have hpackages : (member? (member (member d "route2") "managedGeneration") "packages").isSome :=
    h.packages
  have hother : ∀ key path, key ≠ "route2" →
      valueAt (key :: path) (withPackages packages d) = valueAt (key :: path) d := by
    intro key path hkey
    rw [withPackages, valueAt_atProperty h.route2, if_neg hkey]
  have hown : ∀ key, key ≠ "packages" →
      valueAt ["route2", "managedGeneration", key] (withPackages packages d) =
        valueAt ["route2", "managedGeneration", key] d := by
    intro key hkey
    rw [withPackages, valueAt_atProperty h.route2, if_pos rfl, valueAt_atProperty hgeneration,
      if_pos rfl, valueAt_atProperty hpackages, if_neg hkey]
    rfl
  simp only [refinementIssues, ownedPaths, ownedIssues, packageIssues, hfirst, textAt,
    List.flatMap_cons, List.flatMap_nil, List.cons_append, List.nil_append, qemuPath]
  simp (disch := decide) only [hother, hown]
  rfl

end Issues

section Canonicalization

variable {isUrl : String → Bool} {d d' : JsonValue} {packages packages' : List JsonValue}

/-- What the parsed descriptor has, the rest of this section assumes. -/
theorem hasPackages (h : descriptorSchema isUrl d = true) : HasPackages d := by
  obtain ⟨hroute2, hschema2⟩ := accepted_required h (mem_fields 7 rfl)
  obtain ⟨hgeneration, hschema⟩ := accepted_required hschema2 (mem_fields 0 rfl)
  obtain ⟨hpackages, haccepted⟩ := accepted_required hschema (mem_fields 7 rfl)
  obtain ⟨elements, helements⟩ := exists_of_arrayOf haccepted
  refine ⟨hroute2, hgeneration, hpackages, ?_⟩
  have hlisted : valueAt packagesPath d = .array elements := helements
  rw [packagesOf, hlisted]
  rfl

theorem canonicalizeDeploymentDescriptor_eq (hplain : d.plain = true)
    (h : descriptorSchema isUrl d = true) :
    canonicalizeDeploymentDescriptor d = withPackages (sortBy packageId (packagesOf d)) d := by
  have hroute2 := (accepted_required h (mem_fields 7 rfl)).2
  refine atProperty_congr hplain ?_
  have hsingle := object_single (plain_member hplain "route2") hroute2
  have hpackages : atProperty "packages" sortPackages (valueAt ["route2", "managedGeneration"] d) =
      atProperty "packages" (fun _ => .array (sortBy packageId (packagesOf d)))
        (valueAt ["route2", "managedGeneration"] d) :=
    atProperty_congr (plain_valueAt hplain _) rfl
  rw [canonicalizeRoute2]
  conv_rhs => rw [hsingle]
  rw [atProperty, List.map_cons, List.map_nil, if_pos rfl]
  rw [JsonValue.object.injEq, List.cons.injEq, Prod.mk.injEq]
  exact ⟨⟨rfl, hpackages⟩, rfl⟩

theorem plain_withPackages (hd : d.plain = true) (h : ∀ p ∈ packages, p.plain = true) :
    (withPackages packages d).plain = true :=
  plain_atProperty hd fun _ hw => plain_atProperty hw fun _ hu => plain_atProperty hu fun _ _ =>
    plain_array.2 h

/-- The descriptors are equal up to the order of keys, but for the packages. -/
def SameElsewhere (d d' : JsonValue) : Prop :=
  SameApartFrom "route2" d d' ∧
    SameApartFrom "managedGeneration" (member d "route2") (member d' "route2") ∧
    SameApartFrom "packages" (valueAt ["route2", "managedGeneration"] d)
      (valueAt ["route2", "managedGeneration"] d')

theorem inKeyOrder_withPackages_iff (hd : d.plain = true) (hd' : d'.plain = true)
    (h : HasPackages d) (h' : HasPackages d') (hp : ∀ p ∈ packages, p.plain = true)
    (hp' : ∀ p ∈ packages', p.plain = true) :
    inKeyOrder (withPackages packages d) = inKeyOrder (withPackages packages' d') ↔
      SameElsewhere d d' ∧ packages.map inKeyOrder = packages'.map inKeyOrder := by
  have hroute2 := plain_member hd "route2"
  have hroute2' := plain_member hd' "route2"
  have hinner : ∀ {e : JsonValue} {l : List JsonValue}, e.plain = true →
      (∀ p ∈ l, p.plain = true) → (atProperty "packages" (fun _ => .array l) e).plain = true :=
    fun he hl => plain_atProperty he fun _ _ => plain_array.2 hl
  rw [withPackages, withPackages, inKeyOrder_atProperty_iff hd hd'
      (plain_atProperty hroute2 fun _ hw => hinner hw hp)
      (plain_atProperty hroute2' fun _ hw => hinner hw hp') h.route2 h'.route2,
    inKeyOrder_atProperty_iff hroute2 hroute2' (hinner (plain_member hroute2 _) hp)
      (hinner (plain_member hroute2' _) hp') h.generation h'.generation,
    inKeyOrder_atProperty_iff (plain_member hroute2 _) (plain_member hroute2' _)
      (plain_array.2 hp) (plain_array.2 hp') h.packages h'.packages,
    inKeyOrder_array, inKeyOrder_array, JsonValue.array.injEq, SameElsewhere, and_assoc, and_assoc]
  rfl

theorem sortBy_packageId_inKeyOrder (h : ∀ p ∈ packages, p.plain = true) :
    (sortBy packageId packages).map inKeyOrder = sortBy packageId (packages.map inKeyOrder) := by
  refine List.map_insertionSort _ _ inKeyOrder packages fun p hp q hq => ?_
  rw [packageId, packageId, packageId, packageId, textMember_inKeyOrder (h p hp),
    textMember_inKeyOrder (h q hq)]

theorem respectsKeyOrder_canonicalize : RespectsKeyOrder canonicalizeDeploymentDescriptor := by
  have hsort : RespectsKeyOrder sortPackages := by
    intro v w hv hw heq
    have helements : (elementsOf v).map inKeyOrder = (elementsOf w).map inKeyOrder := by
      rw [← elementsOf_inKeyOrder, ← elementsOf_inKeyOrder, heq]
    rw [sortPackages, sortPackages, inKeyOrder_array, inKeyOrder_array,
      sortBy_packageId_inKeyOrder (plain_elementsOf hv),
      sortBy_packageId_inKeyOrder (plain_elementsOf hw), helements]
  refine respectsKeyOrder_atProperty fun v w hv hw heq => ?_
  have hgeneration : inKeyOrder (member v "managedGeneration") =
      inKeyOrder (member w "managedGeneration") := by
    rw [← member_inKeyOrder hv, ← member_inKeyOrder hw, heq]
  have hpackages : RespectsKeyOrder (atProperty "packages" sortPackages) :=
    respectsKeyOrder_atProperty hsort
  have hsame := hpackages _ _ (plain_member hv "managedGeneration")
    (plain_member hw "managedGeneration") hgeneration
  rw [canonicalizeRoute2, canonicalizeRoute2, inKeyOrder_object, inKeyOrder_object]
  simp only [List.map_cons, List.map_nil, entryInKeyOrder, hsame]

/-- Sorting does not change which package comes first among those with one id. -/
theorem mottainaiPackage_sorted (h : HasPackages d) :
    mottainaiPackage (withPackages (sortBy packageId (packagesOf d)) d) = mottainaiPackage d := by
  rw [mottainaiPackage, packagesOf_withPackages h, mottainaiPackage, ← List.head?_filter,
    ← List.head?_filter, filter_sortBy]

theorem schema_withPackages (h : descriptorSchema isUrl d = true)
    (hperm : packages.Perm (packagesOf d)) :
    descriptorSchema isUrl (withPackages packages d) = true := by
  obtain ⟨-, hroute2⟩ := accepted_required h (mem_fields 7 rfl)
  obtain ⟨-, hgeneration⟩ := accepted_required hroute2 (mem_fields 0 rfl)
  obtain ⟨-, hpackages⟩ := accepted_required hgeneration (mem_fields 7 rfl)
  have hlisted := (hasPackages h).listed
  refine object_atProperty_required h (mem_fields 7 rfl) (by simp [required]) ?_
  refine object_atProperty_required hroute2 (mem_fields 0 rfl) (by decide) ?_
  refine object_atProperty_required hgeneration (mem_fields 7 rfl) (by decide) ?_
  rw [show member (member (member d "route2") "managedGeneration") "packages" =
    .array (packagesOf d) from hlisted, arrayOf_iff] at hpackages
  rw [arrayOf_iff, hperm.length_eq]
  exact ⟨hpackages.1, fun p hp => hpackages.2 p (hperm.mem_iff.1 hp)⟩

end Canonicalization

section Canonical

variable {sha256 : String → String} {isUrl : String → Bool} {v d : JsonValue}

theorem withPackages_self (hplain : d.plain = true) (h : HasPackages d) :
    withPackages (packagesOf d) d = d := by
  have hroute2 := plain_member hplain "route2"
  exact atProperty_self hplain (atProperty_self hroute2
    (atProperty_self (plain_member hroute2 _) h.listed.symm))

theorem identity_eq_iff (hsha256 : Function.Injective sha256) {e e' : JsonValue}
    (he : (canonicalizeDeploymentDescriptor e).plain = true)
    (he' : (canonicalizeDeploymentDescriptor e').plain = true) :
    deploymentDescriptorIdentityOf sha256 e = deploymentDescriptorIdentityOf sha256 e' ↔
      inKeyOrder (canonicalizeDeploymentDescriptor e) =
        inKeyOrder (canonicalizeDeploymentDescriptor e') := by
  rw [deploymentDescriptorIdentityOf, deploymentDescriptorIdentityOf, hsha256.eq_iff,
    canonicalDeploymentDescriptorText, canonicalDeploymentDescriptorText,
    stableStringifyValue_eq_iff he he', rekeyed_iff he he']

theorem plain_canonicalize (h : d.plain = true) :
    (canonicalizeDeploymentDescriptor d).plain = true := by
  refine plain_atProperty h fun w hw => plain_object.2 ⟨List.nodup_singleton _, fun entry hmem => ?_⟩
  rw [List.mem_singleton.1 hmem]
  refine plain_atProperty (plain_member hw _) fun u hu => plain_array.2 fun p hp => ?_
  exact plain_elementsOf hu p (mem_sortBy.1 hp)

theorem canonicalize_withPackages {packages : List JsonValue} (hplain : d.plain = true)
    (h : descriptorSchema isUrl d = true) (hperm : packages.Perm (packagesOf d)) :
    canonicalizeDeploymentDescriptor (withPackages packages d) =
      withPackages (sortBy packageId packages) d := by
  have hpackages : ∀ p ∈ packages, p.plain = true :=
    fun p hp => plain_packagesOf hplain p (hperm.mem_iff.1 hp)
  rw [canonicalizeDeploymentDescriptor_eq (plain_withPackages hplain hpackages)
    (schema_withPackages h hperm), packagesOf_withPackages (hasPackages h)]
  rw [withPackages, withPackages, atProperty_atProperty, atProperty_comp, atProperty_comp]
  rfl

variable {d' : JsonValue}

section

variable (hsha256 : Function.Injective sha256)
include hsha256

theorem identity_reordered (hplain : d.plain = true) (h : descriptorSchema isUrl d = true)
    (hone : OnePackageForEachId d) (hplain' : d'.plain = true) (hd' : Reordered d d') :
    deploymentDescriptorIdentityOf sha256 d' = deploymentDescriptorIdentityOf sha256 d := by
  obtain ⟨packages, hperm, hrekeyed⟩ := hd'
  have hlisted := plain_packagesOf hplain
  have hpackages : ∀ p ∈ packages, p.plain = true := fun p hp => hlisted p (hperm.mem_iff.1 hp)
  have hwith := plain_withPackages hplain hpackages
  have hsame : inKeyOrder (canonicalizeDeploymentDescriptor d') =
      inKeyOrder (withPackages (sortBy packageId packages) d) := by
    rw [← canonicalize_withPackages hplain h hperm]
    exact respectsKeyOrder_canonicalize d' _ hplain' hwith ((rekeyed_iff hwith hplain').1 hrekeyed).symm
  have hsorted : sortBy packageId (packages.map inKeyOrder) =
      sortBy packageId ((packagesOf d).map inKeyOrder) := by
    refine sortBy_eq_of_perm (hperm.map inKeyOrder) fun a ha b hb hid => ?_
    obtain ⟨p, hp, rfl⟩ := List.mem_map.1 ha
    obtain ⟨q, hq, rfl⟩ := List.mem_map.1 hb
    rw [packageId, packageId, textMember_inKeyOrder (hpackages p hp),
      textMember_inKeyOrder (hpackages q hq)] at hid
    exact (rekeyed_iff (hpackages p hp) (hpackages q hq)).1
      (hone p (hperm.mem_iff.1 hp) q (hperm.mem_iff.1 hq) hid)
  rw [identity_eq_iff hsha256 (plain_canonicalize hplain') (plain_canonicalize hplain), hsame,
    canonicalizeDeploymentDescriptor_eq hplain h,
    inKeyOrder_withPackages_iff hplain hplain (hasPackages h) (hasPackages h)
      (fun p hp => hpackages p (mem_sortBy.1 hp)) (fun p hp => hlisted p (mem_sortBy.1 hp)),
    sortBy_packageId_inKeyOrder hpackages, sortBy_packageId_inKeyOrder hlisted]
  exact ⟨⟨rfl, rfl, rfl⟩, hsorted⟩

theorem onePackageForEachId_of_unchanged (hplain : d.plain = true)
    (h : descriptorSchema isUrl d = true)
    (hunchanged : ∀ d', d'.plain = true → Reordered d d' →
      deploymentDescriptorIdentityOf sha256 d' = deploymentDescriptorIdentityOf sha256 d) :
    OnePackageForEachId d := by
  have hlisted := plain_packagesOf hplain
  have hexchange : ∀ {p q : JsonValue} {l₁ l₂ l₃ : List JsonValue}, packageId p = packageId q →
      packagesOf d = l₁ ++ p :: l₂ ++ q :: l₃ → inKeyOrder p = inKeyOrder q := by
    intro p q l₁ l₂ l₃ hid hsplit
    have hperm : (l₁ ++ q :: l₂ ++ p :: l₃).Perm (packagesOf d) :=
      hsplit ▸ Canonical.perm_exchange l₁ l₂ l₃
    have hpackages : ∀ r ∈ l₁ ++ q :: l₂ ++ p :: l₃, r.plain = true :=
      fun r hr => hlisted r (hperm.mem_iff.1 hr)
    have hwith := plain_withPackages hplain hpackages
    have hsame := hunchanged _ hwith ⟨_, hperm, rekeyed_refl hwith⟩
    rw [identity_eq_iff hsha256 (plain_canonicalize hwith) (plain_canonicalize hplain),
      canonicalize_withPackages hplain h hperm, canonicalizeDeploymentDescriptor_eq hplain h,
      inKeyOrder_withPackages_iff hplain hplain (hasPackages h) (hasPackages h)
        (fun r hr => hpackages r (mem_sortBy.1 hr)) (fun r hr => hlisted r (mem_sortBy.1 hr)),
      sortBy_packageId_inKeyOrder hpackages, sortBy_packageId_inKeyOrder hlisted, hsplit] at hsame
    have hp : p.plain = true := hlisted p (by simp [hsplit])
    have hq : q.plain = true := hlisted q (by simp [hsplit])
    have hkey : packageId (inKeyOrder q) = packageId (inKeyOrder p) := by
      rw [packageId, packageId, textMember_inKeyOrder hp, textMember_inKeyOrder hq]
      exact hid.symm
    have hsorted := hsame.2
    simp only [List.map_append, List.map_cons] at hsorted
    exact (eq_of_sortBy_swap hkey hsorted).symm
  intro p hp q hq hid
  rw [rekeyed_iff (hlisted p hp) (hlisted q hq)]
  rcases Canonical.eq_or_split hp hq with rfl | ⟨l₁, l₂, l₃, hsplit⟩ | ⟨l₁, l₂, l₃, hsplit⟩
  · rfl
  · exact hexchange hid hsplit
  · exact (hexchange hid.symm hsplit).symm

/-- Descriptors with one identity are equal up to the order of packages and keys. -/
theorem reordered_of_identity (hplain : d.plain = true) (h : descriptorSchema isUrl d = true)
    (hplain' : d'.plain = true) (h' : descriptorSchema isUrl d' = true)
    (hsame : deploymentDescriptorIdentityOf sha256 d' = deploymentDescriptorIdentityOf sha256 d) :
    Reordered d d' := by
  have hlisted := plain_packagesOf hplain
  have hlisted' := plain_packagesOf hplain'
  rw [identity_eq_iff hsha256 (plain_canonicalize hplain') (plain_canonicalize hplain),
    canonicalizeDeploymentDescriptor_eq hplain h, canonicalizeDeploymentDescriptor_eq hplain' h',
    inKeyOrder_withPackages_iff hplain' hplain (hasPackages h') (hasPackages h)
      (fun p hp => hlisted' p (mem_sortBy.1 hp)) (fun p hp => hlisted p (mem_sortBy.1 hp))] at hsame
  obtain ⟨helsewhere, hpackages⟩ := hsame
  have hperm : ((packagesOf d').map inKeyOrder).Perm ((packagesOf d).map inKeyOrder) :=
    (((sortBy_perm packageId _).map inKeyOrder).symm.trans (List.Perm.of_eq hpackages)).trans
      ((sortBy_perm packageId _).map inKeyOrder)
  obtain ⟨packages, hpackages, hmap⟩ := Canonical.exists_perm_map_eq hperm
  have hplainp : ∀ p ∈ packages, p.plain = true := fun p hp => hlisted p (hpackages.mem_iff.1 hp)
  refine ⟨packages, hpackages, ?_⟩
  rw [rekeyed_iff (plain_withPackages hplain hplainp) hplain',
    ← withPackages_self hplain' (hasPackages h'),
    inKeyOrder_withPackages_iff hplain hplain' (hasPackages h) (hasPackages h') hplainp hlisted']
  exact ⟨⟨helsewhere.1.symm, helsewhere.2.1.symm, helsewhere.2.2.symm⟩, hmap⟩

theorem parsed_canonicalText (hplain : d.plain = true)
    (h : DeploymentDescriptorSchema isUrl d = true) : ∃ value d',
    jsonParse (canonicalDeploymentDescriptorText d) = some value ∧
      parseDeploymentDescriptor isUrl value = some d' ∧
      deploymentDescriptorIdentityOf sha256 d' = deploymentDescriptorIdentityOf sha256 d := by
  rw [DeploymentDescriptorSchema, refined, Bool.and_eq_true] at h
  obtain ⟨hschema, hissues⟩ := h
  have hcanonical := plain_canonicalize hplain
  have hsorted := sortBy_perm packageId (packagesOf d)
  have hform := canonicalizeDeploymentDescriptor_eq hplain hschema
  have haccepted : DeploymentDescriptorSchema isUrl
      (inKeyOrder (canonicalizeDeploymentDescriptor d)) = true := by
    rw [DeploymentDescriptorSchema, refined, Bool.and_eq_true]
    refine ⟨keyOrderFree_descriptorSchema _ hcanonical ?_, ?_⟩
    · rw [hform]
      exact schema_withPackages hschema hsorted
    · rw [refinementIssues_inKeyOrder hcanonical, hform,
        refinementIssues_withPackages (hasPackages hschema) (mottainaiPackage_sorted (hasPackages hschema))]
      exact hissues
  have hplain' := plain_inKeyOrder hcanonical
  refine ⟨_, _, jsonParse_stableStringifyValue hcanonical,
    parseDeploymentDescriptor_of_accepted hplain' haccepted, ?_⟩
  rw [identity_eq_iff hsha256 (plain_canonicalize hplain') hcanonical,
    respectsKeyOrder_canonicalize _ _ hplain' hcanonical (inKeyOrder_inKeyOrder hcanonical)]
  conv_lhs => rw [hform, canonicalize_withPackages hplain hschema hsorted, sortBy_sortBy, ← hform]

end

end Canonical

section Example

def repeated (n : ℕ) (c : Char) : JsonValue := .string (String.ofList (List.replicate n c))

def examplePackage (id version : String) (c : Char) : JsonValue :=
  .object [("packageId", .string id), ("version", .string version), ("flakeRef", .string "nix#package"),
    ("sourceSha256", repeated 64 c)]

def exampleArtifact (filename version : String) (c : Char) : JsonValue :=
  .object [("version", .string version), ("architecture", .string "x86_64"),
    ("filename", .string filename), ("sha256", repeated 64 c), ("sizeBytes", .number "1024"),
    ("locator", .string "https://example.invalid/artifact")]

def exampleProvider : JsonValue := .object [("profileId", .string "linux-x86_64"),
  ("architecture", .string "x86_64-linux"),
  ("provisioning", .object [("strategy", .string "pinned-verified-archives"),
    ("contractVersion", .number "1"), ("stateDirectory", .string "host-bootstrap")]),
  ("lima", exampleArtifact "lima.tar.gz" "2.2.0" '5'),
  ("qemu", .object [("version", .string "9.2.0"), ("architecture", .string "x86_64"),
    ("identity", repeated 64 'a'), ("identityKind", .string "compatibility-profile"),
    ("dataArtifact", exampleArtifact "qemu-data.tar.gz" "9.2.0" '8'),
    ("minimumVersion", .string "9.2.0")]),
  ("compatibility", .object [("limaMajor", .number "2"), ("qemuMajor", .number "9"),
    ("requiresKvm", .boolean true)])]

def exampleDescriptor (packages : List JsonValue) : JsonValue := .object [
  ("contractId", .string "mottainai.deployment.v1"), ("schemaVersion", .number "1"),
  ("release", .object [("version", .string "1.2.3"), ("tag", .string "v1.2.3"),
    ("sourceRevision", repeated 40 'a')]),
  ("profile", .string "linux-x86_64"), ("architecture", .string "x86_64-linux"),
  ("contracts", .object [("descriptor", .string "mottainai.deployment.v1"),
    ("application", .string "mottainai.npm-payload.v1"),
    ("managedGeneration", .string "mottainai.managed-generation.v1"),
    ("appliance", .string "mottainai.linux-runtime-appliance.v1"),
    ("provider", .string "mottainai.route4-provider-profile.v1")]),
  ("route1", .object [("payload", .object [("packageName", .string "mottainai"),
    ("version", .string "1.2.3"), ("sourceRevision", repeated 40 'a'),
    ("filename", .string "mottainai-1.2.3.tgz"), ("sha256", repeated 64 '1'),
    ("integrity", .string "sha512-AAAA"), ("locator", .string "https://example.invalid/payload")])]),
  ("route2", .object [("managedGeneration", .object [
    ("contractId", .string "mottainai.managed-generation.v1"), ("schemaVersion", .number "1"),
    ("version", .string "1.2.3"), ("sourceRevision", repeated 40 'a'), ("identity", repeated 64 '2'),
    ("flakeLockSha256", repeated 64 '3'), ("applicationPayloadSha256", repeated 64 '1'),
    ("packages", .array packages)])]),
  ("route3", .object [("appliance", .object [
    ("contractId", .string "mottainai.linux-runtime-appliance.v1"), ("schemaVersion", .number "1"),
    ("architecture", .string "x86_64-linux"), ("version", .string "1.2.3"),
    ("sourceRevision", repeated 40 'a'), ("registry", .string "ghcr.io"),
    ("repository", .string "mottainai/runtime-appliance"),
    ("digest", .string "sha256:6666666666666666666666666666666666666666666666666666666666666666"),
    ("rawSha256", repeated 64 '7'), ("rawSizeBytes", .number "2048"),
    ("manifestSha256", repeated 64 '8')]), ("managedGenerationIdentity", repeated 64 '2')]),
  ("route4", .object [("mottainaiInit", .object [("version", .string "1.2.3"),
    ("sourceRevision", repeated 40 'a'), ("architecture", .string "x86_64-linux"),
    ("filename", .string "mottainai-init"), ("sha256", repeated 64 '9'),
    ("locator", .string "https://example.invalid/mottainai-init")]), ("provider", exampleProvider)])]

def singlePackage : JsonValue := exampleDescriptor [examplePackage "mottainai" "1.2.3" '4']

/-- Two different packages have one id. -/
def duplicatePackages : JsonValue := exampleDescriptor [examplePackage "mottainai" "1.2.3" '4',
  examplePackage "nawabari" "0.6.1" 'b', examplePackage "nawabari" "0.6.2" 'c']

def isHttpsUrl (text : String) : Bool := "https://".toList.isPrefixOf text.toList

theorem parse_singlePackage : parseDeploymentDescriptor isHttpsUrl singlePackage = some singlePackage :=
  parseDeploymentDescriptor_of_accepted (by decide) (by decide)

end Example

end Mottainai.DeploymentDescriptors
