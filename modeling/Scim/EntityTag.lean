import Scim.Digest.Base64
import Scim.Digest.Sha256
import Scim.Resource

/-!
# Entity tags

The version of a resource is a weak entity tag made from the first eight octets of the SHA-256 hash
of its text.
-/

namespace Scim.EntityTag

def ofContent (content : String) : String :=
  "W/\"" ++ Digest.base64 ((Digest.sha256 content.toUTF8.toList).take 8) ++ "\""

/-- The tag of a resource as it stands, its metadata included. -/
def ofResource {α : Type} [Resource α] (r : α) : String :=
  ofContent (Resource.text r)

end Scim.EntityTag
