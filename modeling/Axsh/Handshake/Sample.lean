/-
# Sample sessions

A client and a server of the sample library, named by the bytes that are their key
pairs.
-/

import Axsh.Client
import Axsh.Crypto.Sample
import Axsh.Server

set_option autoImplicit false

namespace Axsh

/-- The hello of a sample server. -/
def sampleHello (keyPair : UInt8) (unique : UInt64) : ServerHello where
  unique := unique
  connSignPublicKeySha256 := Crypto.sample.sha256 (ConnSign.sample keyPair).publicKeyBytes
  packetSignPublicKey := (PacketSign.sample keyPair).publicKeyBytes

/-- A client whose lookup knows one key and which accepts any. -/
def ClientConfig.sample (keyPair : UInt8) (known : Bytes) : ClientConfig Crypto.sample where
  connSign := .sample keyPair
  lookupServerPubkey _ := .ok (some known)
  acceptServerPubkey _ _ := .ok ()
  newPacketSign := .ok (.sample keyPair)
  randomU64 := .ok 0
  coins := []

/-- A server that authorizes one key. -/
def ServerConfig.sample (keyPair : UInt8) (unique : UInt64) (authorized : Bytes) :
    ServerConfig Crypto.sample where
  connSign := .sample keyPair
  authorizedKeys digest :=
    if digest = Crypto.sample.sha256 authorized then some authorized else none
  newPacketSign := .ok (.sample keyPair)
  randomU64 := .ok unique
  coins := []

theorem ServerConfig.sample_authorizedKeys (keyPair : UInt8) (unique : UInt64)
    (authorized : Bytes) :
    (sample keyPair unique authorized).authorizedKeys (Crypto.sample.sha256 authorized) =
      some authorized := if_pos rfl

theorem ServerConfig.digest_of_sample_authorizedKeys {keyPair : UInt8} {unique : UInt64}
    {authorized key : Bytes} {digest : Fixed sha256DigestLen}
    (h : (sample keyPair unique authorized).authorizedKeys digest = some key) :
    digest = Crypto.sample.sha256 key := by
  by_cases hdigest : digest = Crypto.sample.sha256 authorized
  · rw [hdigest, sample_authorizedKeys] at h
    rw [hdigest, Option.some.inj h]
  · have hnone : (sample keyPair unique authorized).authorizedKeys digest = none := if_neg hdigest
    rw [hnone] at h
    cases h

end Axsh
