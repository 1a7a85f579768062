import DalvikLinkage.ClassPath.Profile

/-!
# Stock boot class paths

The boot class path that a stock device of an API level ships with.
-/
namespace DalvikLinkage.ClassPath

/-- The file names of the boot class path, in order, by API level. -/
def stockBootJars : Int → List String :=
  stepValue
    [(8, ["core.jar", "ext.jar", "framework.jar", "android.policy.jar", "services.jar"]),
      (11, ["core.jar", "bouncycastle.jar", "ext.jar", "framework.jar", "android.policy.jar",
        "services.jar", "core-junit.jar"]),
      (13, ["core.jar", "apache-xml.jar", "bouncycastle.jar", "ext.jar", "framework.jar",
        "android.policy.jar", "services.jar", "core-junit.jar"]),
      (17, ["core.jar", "core-junit.jar", "bouncycastle.jar", "ext.jar", "framework.jar",
        "telephony-common.jar", "mms-common.jar", "android.policy.jar", "services.jar",
        "apache-xml.jar"]),
      (18, ["core.jar", "core-junit.jar", "bouncycastle.jar", "ext.jar", "framework.jar",
        "telephony-common.jar", "voip-common.jar", "mms-common.jar", "android.policy.jar",
        "services.jar", "apache-xml.jar"]),
      (19, ["core.jar", "conscrypt.jar", "core-junit.jar", "bouncycastle.jar", "ext.jar",
        "framework.jar", "framework2.jar", "telephony-common.jar", "voip-common.jar",
        "mms-common.jar", "android.policy.jar", "services.jar", "apache-xml.jar",
        "webviewchromium.jar"]),
      (22, ["core-libart.jar", "conscrypt.jar", "okhttp.jar", "core-junit.jar",
        "bouncycastle.jar", "ext.jar", "framework.jar", "telephony-common.jar",
        "voip-common.jar", "ims-common.jar", "mms-common.jar", "android.policy.jar",
        "apache-xml.jar"]),
      (23, ["core-libart.jar", "conscrypt.jar", "okhttp.jar", "core-junit.jar",
        "bouncycastle.jar", "ext.jar", "framework.jar", "telephony-common.jar",
        "voip-common.jar", "ims-common.jar", "apache-xml.jar",
        "org.apache.http.legacy.boot.jar"])]
    ["core-oj.jar", "core-libart.jar", "conscrypt.jar", "okhttp.jar", "core-junit.jar",
      "bouncycastle.jar", "ext.jar", "framework.jar", "telephony-common.jar", "voip-common.jar",
      "ims-common.jar", "apache-xml.jar", "org.apache.http.legacy.boot.jar"]

/-- The device paths of the boot class path of an API level. -/
def stockBootClassPath (apiLevel : Int) : List String :=
  (stockBootJars apiLevel).map fun jar => "/system/framework/" ++ jar

end DalvikLinkage.ClassPath
