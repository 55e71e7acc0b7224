import Scim.Filter.Basic

/-!
# Faults

Every way in which a request can fail, by its cause, and the text of each. `Invalid` holds the
faults of a single value or request that can be found without looking anywhere else.
-/

namespace Scim

/-- What is wrong with a value or with the shape of a request. -/
inductive Invalid where
  | clientProvidedId
  | missingId
  | missingRequiredAttribute (name : String)
  | missingSchemaIdentifier
  | missingCorrelationIdentifier
  | missingPatchTarget
  | missingPatchPayload
  | invalidPatchValue (path details : String)
  | resourceTypeMismatch (expected actual : String)
  | custom (message : String)
  deriving DecidableEq, Repr

namespace Invalid

def message : Invalid → String
  | .clientProvidedId => "Client cannot provide 'id' during resource creation"
  | .missingId => "Missing required 'id' attribute"
  | .missingRequiredAttribute name => s!"Required attribute '{name}' is missing"
  | .missingSchemaIdentifier => "Query parameters must name a schema identifier"
  | .missingCorrelationIdentifier => "Request must carry a correlation identifier"
  | .missingPatchTarget => "Patch request must identify the target resource"
  | .missingPatchPayload => "Patch request must carry a payload"
  | .invalidPatchValue path details => s!"Patch value for '{path}' is invalid: {details}"
  | .resourceTypeMismatch expected actual =>
    s!"Resource of type '{actual}' cannot be handled as '{expected}'"
  | .custom message => s!"Validation failed: {message}"

end Invalid

/-- Why an operation of the service failed. -/
inductive Fault where
  | validation (cause : Invalid)
  | conflict (resourceType key value : String)
  | resourceNotFound (resourceType id : String)
  | invalidFilter (flaw : Filter.Flaw)
  | unsupportedFilterAttribute (path : String)
  | unsupportedFilterOperator (path : String) (operator : Filter.Operator)
  | unsupportedPatchPath (path : String)
  | unsupportedPatchPayload (payload : String)
  | unsupportedResourceType (schemas : String)
  | persistence (call reason : String)
  | timeout (call : String)
  | configuration (reason : String)
  | json (cause : DecodeError)
  /-- The stored time of modification is the last one there is, so that no later one exists. -/
  | endOfTime
  deriving DecidableEq, Repr

namespace Fault

def message : Fault → String
  | .validation cause => s!"Validation error: {cause.message}"
  | .conflict resourceType key value =>
    s!"Conflict: {resourceType} with {key} '{value}' already exists"
  | .resourceNotFound resourceType id => s!"Resource not found: {resourceType} with ID {id}"
  | .invalidFilter flaw => s!"Invalid filter: {flaw.message}"
  | .unsupportedFilterAttribute path => s!"Filter attribute path '{path}' is not supported"
  | .unsupportedFilterOperator path operator =>
    s!"Filter operator '{operator.word}' is not supported for attribute '{path}'"
  | .unsupportedPatchPath path => s!"Patch path '{path}' is not supported"
  | .unsupportedPatchPayload payload => s!"Patch payload '{payload}' is not supported"
  | .unsupportedResourceType schemas => s!"Unsupported resource type: {schemas}"
  | .persistence call reason => s!"Persistence error during {call}: {reason}"
  | .timeout call => s!"Repository operation '{call}' timed out"
  | .configuration reason => s!"Invalid configuration: {reason}"
  | .json cause => s!"JSON error: {cause.message}"
  | .endOfTime => "Time of modification cannot be moved forward"

/-- Whether the fault lies with the caller, and not with the service or what it stores in. -/
def isClient : Fault → Bool
  | .persistence _ _ => false
  | .timeout _ => false
  | .configuration _ => false
  | .endOfTime => false
  | _ => true

/-- A decoded value, with a failure as a fault of the request. -/
def ofDecoded {α : Type} : Decoded α → Except Fault α
  | .ok a => .ok a
  | .error e => .error (.json e)

/-- A value read from or by a filter, with a flaw as a fault of the request. -/
def ofFiltered {α : Type} : Except Filter.Flaw α → Except Fault α
  | .ok a => .ok a
  | .error e => .error (.invalidFilter e)

/-- A checked value, with a failure as a fault of the request. -/
def ofValidated {α : Type} : Except Invalid α → Except Fault α
  | .ok a => .ok a
  | .error e => .error (.validation e)

end Fault

end Scim
