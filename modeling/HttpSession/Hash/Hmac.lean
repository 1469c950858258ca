import HttpSession.Hash.Md5

/-!
# HMAC

Keyed digests after RFC 2104, with MD5.
-/

namespace HttpSession.Hash

/-- A key as a block of 64 bytes; a longer one is digested first. -/
def keyBlock (key : Bytes) : Bytes :=
  let short := if key.length > 64 then Md5.digest key else key
  short ++ List.replicate (64 - short.length) 0

def hmacMd5 (key message : Bytes) : Bytes :=
  let block := keyBlock key
  let inner := Md5.digest (block.map (· ^^^ 0x36) ++ message)
  Md5.digest (block.map (· ^^^ 0x5c) ++ inner)

theorem length_hmacMd5 (key message : Bytes) : (hmacMd5 key message).length = 16 :=
  Md5.length_digest _

end HttpSession.Hash
