import Tinct.CharSet

/-!
# Characters with a printed form

`isPrinted` tells whether a character shows as itself between quotes. It does not if it is a
control, format or private character, unassigned, a blank other than the space, a mark that joins
the character before it, or one that is meant to be left out where it cannot be shown. The table
follows version 17.0 of the Unicode character database.
-/

namespace Tinct.Unicode

/-- The characters above ASCII that have no printed form of their own. -/
def unprinted : CharSet :=
  .ofSorted <| CharSet.unpack 0x7F [
    "A1HMAmW4HIBGDHABAUA8QG6KA1MB1YBD1TBABBBBBI1BDGQKKBA1UUQA3XHBFCBBD1GBBA1E1C3LKBN1RIHCYDBIBCBG",
    "PAZEBALE1GP1Q2E2DABAEHEADGKB1DACAIBCBWAHABCECBACFCBCABMCADDYEBAGDCBWAHACACACDDXEABGKBDABLBAJ",
    "ADAWAHACAFCEHBACCBOCDMGBHCAIBCBWAHACAFCBBBFCBCOCADDSKBAGCDAECCABACCCCDCMEBACCDADCBUVFDAIADAX",
    "AQCBCESDACBCDKGKALADAXAKAFCCBBACWDACDKADNLADA1PBBACEDADACDDAKD1ABCASCYAJABBHICFHGKBDL1WACKIH",
    "N1KCABAFAYABAKACIBBFABIKBE1FYB1BABABAOA1KRBEBBF1WIAGAN1K1TDBFBBCBZBECQDNACBGAPA1OABEBB5NB8YA",
    "EBHABAEB1PAEB1HAEBHABAEBPA2FAEB2PE1DC1AF3IBGBoQA1CC3LGSMTCCISNNADO2ABBGIACKJCKFKFLEKF3LGFB1I",
    "ABE2SJ1FDEBDDCAGGBC1QBFK1SD1AFLC2FBCC2EABIBACHGMKFKFO3H1WJECIA1DIMB1GDCF2EABBDABM1WHCEPC2KE1",
    "RBLKBMBGEAGADBBE7K2LaSBGB1MBGBIABABABA1FB2BAPAOBGATBDAJQYH1VQCB1BANC1I2J5KDpQVLU1xSBeNCCE1TA",
    "BEBB2EGCOXIHAHAHAHAHAHAHAH1G3Q1H1AA3LL8GZQA1PFQA3ID3XE1RA1ZA1QA3II1WAvaRC2DIdKT1VDBJ1GB3CBGH",
    "8NTRADAEAZBFDKF2EH2QJMXNA1MHZKBL1EF1WACDCBCANALDHAZA1PFCBCKDAIABBKB1GA1ZABCCBFBBABXRBIKGBGBG",
    "IHAHA2ID4NACAECKFbxSLXD1X91BeCB4C1LHLFEBAYAFABACACApA1FQPKV1JATAEDFA5FD6DA1ECGBGBGBDCHAHMCBM",
    "A1AATACAPBO1H4TEDD1TC3KANCB1U1T5A1DC1XP1BD1KI1EE1MJ1EA1LDO1P6CBKF1KD1KD1OH2AKMAPAHACALAPAHAC",
    "C2ALbZIWJIXGA1QAJ2QGBBA1SACCBBXA2UHJ1VTACE1HC1BE1B1L2EDUB1VOEADA1DJJGJG2M1F1LFMI2CC1DB1BE1AG",
    "ELH3B2V2C1ZM1ZG1QLKF1MHYHC7Z1FA1QCBBCPGHJ1M1OHWKJVSDE1L1CTXIBA2COHD1EACBBL1XDCBCAENZGKI1KEBI",
    "SH1JADK2AIBAIDCAQAUKSA1CCCDGAC2KHABAEAPALF1VADMKHCAIBCBWAHACAFCBABAEBCBCCBLH1BKABBBA1MABACOB",
    "ACCBADAC1M2EHCCBAVABAD1D1WACFBACABBBBEHK6J1VACFEBBB1B1J1ZHCABBEKKFNS1RABACHCFKFU1B1BCBACDBIX",
    "7C1VIBBB3V3FLIBBBIACAYAFACFEADIK2RIB1QHEAE1ABJ1OFCDIIBFCC1UMBBJM2VGK3IBCBAB3J1INKFJA1MNBAGJ1",
    "DC1GYBGBBB2WHACA1MUBIKFGACA1LDCABABGKF1SDK9LTBEIPA1KHCCX3HBO1YMzN3X4HAFK7O2tJ3VM15GQGY49REmL",
    "7bC1ELDCK1uRlXG1FAKD3DAKF1EGBJ1WGPJKAHAVETgP2G7P3NEZBZ1R2XE2EKN2LENFI7vY1O1G3S4L9aQEAHACAbFO",
    "B1CDBBNEHfG2gT4DENCJGKBBBB47J9TCgUFXOR3Q4M2H9MJ1NB2IEDVCG1ED2JU2OCB4RULUL3JIZ5E3HA2TACBBBCBE",
    "AMABAHA2NAEBIAHA1CAEAFABCHAdCBbGBlQ2CE1XIAOAH17V1FFGaA2K5P1TJHBKDCcH1ER1SDKEBhV1CDK8F1EBLDB7",
    "J1FADACAHBFIC8PHAEACAPA7PBJ1V2QGBDKDCuE2Q2X2J7LEA1BACABBBAKAEABABFBDBABABADACABBBABABABABACA",
    "BBEAHAEAEABAKAREDAFAR1ZCaJ1SD3WLPBPAPA1LJ6S2D1DM1SDJGCNG5X11XCRCNC8KFMDBOMD2EHKF1OH1EBMDCNJ1",
    "MdGHOBNCLC2FABDQBMDKG5RA3Z13O19nC1F4oOB66CB7zLOnY2mVkW1lX59ZE92OqtvX"]

/-- Whether a character has a printed form of its own. -/
def isPrinted (c : Char) : Bool :=
  if c.toNat < 0x7F then 0x20 ≤ c.toNat else !unprinted.contains c

end Tinct.Unicode
